import RecordLayer.Proofs.EntityStore
import RecordLayer.Rule.Builtin

/-!
# Records that mirror their rows

A record that has been inserted and then updated any number of times agrees with its row: the row
under the record's key, read back, is the record (`EntityStore.Run.mirrors`).

The invariant is `Mirrored`: each stored column of the record's row holds the record's content.  An
insert leaves out what is blank, so that the row has nothing there and the record what it started
with; hence the record has to start empty (`StartsEmpty`).  An update leaves out what does not
differ, which the row holds already.
-/

namespace RecordLayer
open Dialogue

/-! ### Runs -/

/-- The stored fields start empty, but for truth values and decimals. -/
def Record.StartsEmpty {e : Entity} (initial : Record e) : Prop :=
  ∀ i, (e.field i).isPersistable = true → (e.field i).kind ≠ .bool → (e.field i).kind ≠ .decimal →
    initial.content i = (e.field i).kind.empty

namespace EntityStore
variable {ctx : Context} {e : Entity} {key : e.Position} (store : EntityStore ctx e key)

/-- What an insert and any number of updates leave, all of which succeeded: the key that was
assigned, the record as it stands, and the backend's state. -/
inductive Run (initial : Record e) : Option Int64 → Record e → store.State → Prop where
  | insert {s s' requested written result}
      (hrun : run store.answer (ctx.insert initial requested) s = (written, s'))
      (hok : written.result = .ok result) : Run initial result.lastId written.current s'
  | update {assigned current s s' requested written changeset}
      (h : Run initial assigned current s)
      (hrun : run store.answer (ctx.update current requested) s = (written, s'))
      (hok : written.result = .ok changeset) : Run initial assigned written.current s'

/-- The record has a key, and each stored column of the key's row holds the record's content. -/
structure Mirrored (current : Record e) (id : Int64) (cells : e.Position → Cell)
    (s : store.State) : Prop where
  keyed : current.value key = .int id
  ne_zero : id ≠ 0
  stored : store.stored s id = some cells
  holds : ∀ i, (e.field i).isPersistable = true →
    (e.field i).kind.Holds (current.content i) (cells i)

variable {store} {current requested : Record e} {id : Int64} {cells : e.Position → Cell}
  {s s' : store.State}

/-- What an insert leaves out is empty in a record that starts empty. -/
theorem content_eq_empty (hkeys : e.HasIntegerKeys) {initial : Record e}
    (hinitial : initial.StartsEmpty) {i : e.Position} (hi : (e.field i).isPersistable = true)
    (hnot : Record.contributes .insert initial requested i = false) :
    initial.content i = (e.field i).kind.empty := by
  have hleft : (e.field i).identity = true ∨ requested.isBlank i = true := by
    simpa [Record.contributes, hi, Decidable.or_iff_not_imp_left] using hnot
  have hne : (e.field i).kind ≠ .bool ∧ (e.field i).kind ≠ .decimal := by
    rcases hleft with hidentity | hblank
    · rw [hkeys i hidentity]
      decide
    · have hgiven : ∀ {k : Kind} {x : k.Content}, (k.toValue x).isBlank = true →
          k ≠ .bool ∧ k ≠ .decimal := by
        intro k x hx
        refine ⟨?_, ?_⟩ <;> rintro rfl <;> cases hx
      exact hgiven hblank
  exact hinitial i hi hne.1 hne.2

/-- A row that an insert fills mirrors the record that the insert leaves. -/
theorem mirrored_of_fills (hkeys : e.HasIntegerKeys) (hkey : e.identity? = some key)
    {initial : Record e} (hinitial : initial.StartsEmpty) {result : InsertResult}
    (hid : result.lastId = some id) (hne : id ≠ 0) (hstored : store.stored s' id = some cells)
    (hfills : requested.Fills (Record.contributing .insert initial requested) key id cells) :
    store.Mirrored (Context.identified (Record.merged .insert initial requested) result) id cells
      s' := by
  have hvalue := Context.value_identified hkeys hkey hid (Record.merged .insert initial requested)
  refine ⟨hvalue, hne, hstored, fun i hi => ?_⟩
  by_cases hikey : i = key
  · subst hikey
    refine .inl ?_
    rw [hfills.keyed, show (e.field i).kind.toValue _ = .int id from hvalue]
    exact .int id
  · rw [Context.content_identified_of_ne hkey _ _ hikey, Record.content_merged]
    cases hc : Record.contributes .insert initial requested i with
    | true =>
      rw [if_pos rfl]
      exact .inl (hfills.listed i (Record.mem_contributing.2 hc))
    | false =>
      rw [if_neg Bool.false_ne_true, content_eq_empty hkeys hinitial hi hc]
      refine hfills.others i (fun hmem => ?_) hikey hi
      rw [Record.mem_contributing, hc] at hmem
      cases hmem

/-- **An insert that succeeds** reports the key of a row that mirrors the record. -/
theorem mirrored_insert (he : e.IsTabular) (hkeys : e.HasIntegerKeys)
    (hkey : e.identity? = some key) {initial : Record e} (hinitial : initial.StartsEmpty)
    {written : Written e InsertResult} {result : InsertResult}
    (hrun : run store.answer (ctx.insert initial requested) s = (written, s'))
    (hok : written.result = .ok result) :
    ∃ id cells, result.lastId = some id ∧ store.Mirrored written.current id cells s' := by
  have hlisting := Record.isListing_contributing .insert initial requested
  obtain ⟨hsent, hcurrent⟩ := Context.run_insert_ok hrun hok
  rw [hcurrent]
  rcases Context.run_sendInsert_ok he.isWritable hsent with
    ⟨rows, hreturning, hanswer, hread⟩ | ⟨done, hreturning, hanswer, rfl⟩
  · obtain ⟨column, id, cells, rfl, hne, -, hstored, hfills⟩ :=
      store.fetch_insert hlisting hreturning hanswer
    have hresult : Except.ok ⟨1, some id⟩ = Except.ok result := hread
    obtain rfl := Except.ok.inj hresult
    exact ⟨id, cells, rfl, mirrored_of_fills hkeys hkey hinitial rfl hne hstored hfills⟩
  · obtain ⟨id, cells, hid, hne, -, hstored, hfills⟩ :=
      store.execute_insert hlisting hreturning hanswer
    exact ⟨id, cells, hid, mirrored_of_fills hkeys hkey hinitial hid hne hstored hfills⟩

/-- **An update that succeeds** leaves the row of the same key mirroring the record. -/
theorem mirrored_update (he : e.IsTabular) (hkey : e.identity? = some key)
    (h : store.Mirrored current id cells s) {written : Written e Changeset}
    {changeset : Changeset}
    (hrun : run store.answer (ctx.update current requested) s = (written, s'))
    (hok : written.result = .ok changeset) :
    ∃ cells', store.Mirrored written.current id cells' s' := by
  have hid : (current.value key).isBlank = false := by
    rw [h.keyed]
    exact beq_eq_false_iff_ne.2 h.ne_zero
  have hcurrent : written.current = Record.merged .update current requested :=
    (congrArg (·.1.current) hrun).symm.trans (Context.current_run_update hkey hid)
  have hkeyed : written.current.value key = .int id := by
    rw [hcurrent, Record.value_merged_of_identity (Entity.of_identity? hkey).1, h.keyed]
  have hmerged : ∀ i, written.current.content i =
      if Record.contributes .update current requested i then requested.content i
      else current.content i := fun i => by
    rw [hcurrent, Record.content_merged]
  rcases Context.run_update_ok he.isWritable hkey hid hrun hok with
    ⟨hnone, rfl⟩ | ⟨done, hanswer, haffected⟩
  · refine ⟨cells, hkeyed, h.ne_zero, h.stored, fun i hi => ?_⟩
    have hnot : Record.contributes .update current requested i = false := by
      rw [← Bool.not_eq_true, ← Record.mem_contributing, hnone]
      exact List.not_mem_nil
    rw [hmerged, hnot, if_neg Bool.false_ne_true]
    exact h.holds i hi
  · rw [h.keyed] at hanswer
    obtain ⟨new, hstored, hlisted, hothers⟩ := store.execute_update
      (Record.isListing_contributing .update current requested) hanswer haffected cells h.stored
    refine ⟨new, hkeyed, h.ne_zero, hstored, fun i hi => ?_⟩
    rw [hmerged]
    cases hc : Record.contributes .update current requested i with
    | true =>
      rw [if_pos rfl]
      exact .inl (hlisted i (Record.mem_contributing.2 hc))
    | false =>
      have hnot : i ∉ Record.contributing .update current requested := fun hmem => by
        rw [Record.mem_contributing, hc] at hmem
        cases hmem
      rw [if_neg Bool.false_ne_true, hothers i hnot]
      exact h.holds i hi

/-- Every run keeps the record's row mirroring it. -/
theorem Run.mirrored (he : e.IsTabular) (hkeys : e.HasIntegerKeys) (hkey : e.identity? = some key)
    {initial : Record e} (hinitial : initial.StartsEmpty) {assigned : Option Int64}
    (h : store.Run initial assigned current s) :
    ∃ id cells, assigned = some id ∧ store.Mirrored current id cells s := by
  induction h with
  | insert hrun hok => exact mirrored_insert he hkeys hkey hinitial hrun hok
  | update h hrun hok ih =>
    obtain ⟨id, cells, hassigned, hmirrored⟩ := ih
    obtain ⟨cells', hmirrored'⟩ := mirrored_update he hkey hmirrored hrun hok
    exact ⟨id, cells', hassigned, hmirrored'⟩

end EntityStore

/-! ### A job and its row -/

section
open Catalog JobStore

theorem isTabular_job : job.IsTabular :=
  ⟨by decide, by decide, by decide⟩

theorem hasIntegerKeys_job : job.HasIntegerKeys := by
  unfold Entity.HasIntegerKeys
  decide

theorem startsEmpty_empty (e : Entity) : (Record.empty e).StartsEmpty :=
  fun _ _ _ _ => rfl

/-- The context of a store with the usual rules. -/
def plainContext : Context :=
  ⟨.sqlite, .builtin⟩

def noJobs : Shelf :=
  ⟨fun _ => none, 1⟩

/-- The first day of a year, far or near. -/
def newYear (year : Int) : Instant :=
  ⟨(Date.mk year 1 1).toDays * 86400, 0, Nat.zero_lt_succ _,
    fun h => absurd h (Nat.not_succ_le_zero _)⟩

end

end RecordLayer
