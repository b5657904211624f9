import RecordLayer.Proofs.Mirror

/-!
# Clients of one row

Clients read a row, each into a record of its own, and update it from there, in any order and from
copies as old as they please.  An update sends what its client changed and nothing else, so a column
ends with what the last client wrote that changed it, and clients that changed different columns do
not undo each other's work, whatever the order (`RowStore.Run.last_write_stands`).

The backend is a `RowStore`: an update overwrites the listed columns of its row.  What one step does
to the row is in `Overwritten.concat`; a run adds up such steps (`Run.served`).
-/

namespace RecordLayer
open Dialogue

/-- A backend whose updates overwrite the listed columns of the row with a key, and no others.
What it answers to other statements, and when it fails, is left open. -/
structure RowStore (ctx : Context) (e : Entity) (key : e.Position) where
  State : Type
  answer : Answerer Statement Statement.Answer State
  /-- The cells of the row that has a key. -/
  stored : State → Int64 → Option (e.Position → Cell)
  /-- The cell of a column to which a value was bound. -/
  cell : e.Position → Value → Cell
  execute_update : ∀ {s s' requested positions id done}, e.IsListing positions →
    answer (.execute (ctx.updateSql requested positions key (.int id))
      (positions.map requested.value ++ [.int id])) s = (.ok done, s') →
    done.affected ≠ 0 →
    ∀ old, stored s id = some old → ∃ new, stored s' id = some new ∧
      (∀ i ∈ positions, new i = cell i (requested.value i)) ∧
      ∀ i ∉ positions, new i = old i

/-- An update that succeeded: the copy that it went out from, what was asked for, and the changeset
that it returned. -/
structure Call (e : Entity) where
  copy : Record e
  requested : Record e
  changeset : Changeset

namespace Call
variable {e : Entity}

/-- The changeset contains the field's column. -/
def Lists (call : Call e) (i : e.Position) : Prop :=
  e.columnOf i ∈ call.changeset.columns

/-- The two calls have no column in common. -/
def Apart (a b : Call e) : Prop :=
  ∀ i, a.Lists i → ¬ b.Lists i

/-- What the client had and what it asked for. -/
def client (call : Call e) : Record e × Record e :=
  (call.copy, call.requested)

/-- The call of a client. -/
def ofClient (client : Record e × Record e) : Call e :=
  ⟨client.1, client.2, Record.changeset .update client.1 client.2⟩

theorem Apart.symm {a b : Call e} (h : a.Apart b) : b.Apart a :=
  fun i hb ha => h i ha hb

end Call

namespace RowStore
variable {ctx : Context} {e : Entity} {key : e.Position} (store : RowStore ctx e key)

/-- Clients that read the row of a key and update it: the records in their hands, the updates so
far, all of them successful, and the backend's state. -/
inductive Run (id : Int64) (start : store.State) :
    List (Record e) → List (Call e) → store.State → Prop where
  | start : Run id start [] [] start
  | read {copies calls s cells row initial copy} (h : Run id start copies calls s)
      (hstored : store.stored s id = some cells) (hrow : Row.Shows e cells row)
      (hread : Row.scanOver initial row = .ok copy) : Run id start (copy :: copies) calls s
  | update {copies calls s s' copy requested written changeset} (h : Run id start copies calls s)
      (hcopy : copy ∈ copies)
      (hrun : run store.answer (ctx.update copy requested) s = (written, s'))
      (hok : written.result = .ok changeset) :
      Run id start (written.current :: copies) (calls ++ [⟨copy, requested, changeset⟩]) s'

/-! ### What calls leave of a row -/

/-- Each column holds what the last call wrote that lists it, or what it held before if there is
none. -/
structure Overwritten (cells : e.Position → Cell) (calls : List (Call e))
    (final : e.Position → Cell) : Prop where
  kept : ∀ i, (∀ call ∈ calls, ¬ call.Lists i) → final i = cells i
  last : ∀ before call after, calls = before ++ call :: after → ∀ i, call.Lists i →
    (∀ later ∈ after, ¬ later.Lists i) → final i = store.cell i (call.requested.value i)

namespace Overwritten
variable {store} {cells mid final : e.Position → Cell} {calls : List (Call e)}

theorem nil (cells : e.Position → Cell) : store.Overwritten cells [] cells :=
  ⟨fun _ _ => rfl, fun before call after h => absurd h (by simp)⟩

/-- One more call overwrites what it lists. -/
theorem concat (h : store.Overwritten cells calls mid) {call : Call e}
    (hlisted : ∀ i, call.Lists i → final i = store.cell i (call.requested.value i))
    (hothers : ∀ i, ¬ call.Lists i → final i = mid i) :
    store.Overwritten cells (calls ++ [call]) final := by
  refine ⟨fun i hnone => ?_, fun before other after hcalls i hi hlater => ?_⟩
  · rw [hothers i (hnone call (by simp))]
    exact h.kept i fun other hmem => hnone other (List.mem_append_left _ hmem)
  · rcases List.eq_nil_or_concat after with rfl | ⟨after, latest, rfl⟩
    · obtain ⟨-, hlast⟩ := List.append_inj' hcalls rfl
      obtain rfl : call = other := (List.cons.inj hlast).1
      exact hlisted i hi
    · rw [List.concat_eq_append, ← List.cons_append, ← List.append_assoc] at hcalls
      obtain ⟨hbefore, hlast⟩ := List.append_inj' hcalls rfl
      obtain rfl : call = latest := (List.cons.inj hlast).1
      rw [hothers i (hlater call (by simp))]
      exact h.last before other after hbefore i hi fun later hmem =>
        hlater later (by simp [hmem])

/-- Among calls that have no columns in common, each is the last to write its own. -/
theorem of_apart (h : store.Overwritten cells calls final) (hapart : calls.Pairwise Call.Apart)
    {call : Call e} (hmem : call ∈ calls) {i : e.Position} (hi : call.Lists i) :
    final i = store.cell i (call.requested.value i) := by
  obtain ⟨before, after, hcalls⟩ := List.append_of_mem hmem
  rw [hcalls] at hapart
  have hafter := (List.pairwise_cons.1 (List.pairwise_append.1 hapart).2.1).1
  exact h.last before call after hcalls i hi fun later hlater => hafter later hlater i hi

/-- Calls that have no columns in common leave the same row in every order. -/
theorem eq_of_perm (h : store.Overwritten cells calls final) (hapart : calls.Pairwise Call.Apart)
    {calls' : List (Call e)} {final' : e.Position → Cell}
    (h' : store.Overwritten cells calls' final') (hperm : calls'.Perm calls) : final' = final := by
  have hapart' : calls'.Pairwise Call.Apart :=
    hperm.symm.pairwise hapart fun h => h.symm
  funext i
  by_cases hsome : ∃ call ∈ calls, call.Lists i
  · obtain ⟨call, hmem, hi⟩ := hsome
    rw [h.of_apart hapart hmem hi, h'.of_apart hapart' (hperm.mem_iff.2 hmem) hi]
  · have hnone : ∀ call ∈ calls, ¬ call.Lists i := fun call hmem hi => hsome ⟨call, hmem, hi⟩
    rw [h.kept i hnone, h'.kept i fun call hmem => hnone call (hperm.mem_iff.1 hmem)]

end Overwritten

/-! ### What a run leaves of a row -/

variable {store} {id : Int64} {start s s' : store.State} {copies : List (Record e)}
  {calls : List (Call e)} {cells : e.Position → Cell}

/-- A client that reads the row of a key has a record with that key. -/
theorem value_key_of_read (he : e.IsTabular) (hkeys : e.HasIntegerKeys)
    (hkey : e.identity? = some key) (hkeyed : cells key = .int id) {row : Row}
    (hrow : Row.Shows e cells row) {initial copy : Record e}
    (hread : Row.scanOver initial row = .ok copy) :
    copy.value key = .int id := by
  have hcontent := Row.content?_of_scanOver he.hasDistinctColumns hrow hread
    (Entity.of_identity? hkey).2
  have hint : ∀ (k : Kind) (x : k.Content), k = .int → (Cell.int id).content? k = some x →
      k.toValue x = .int id := by
    rintro _ x rfl hx
    cases hx
    rfl
  rw [hkeyed] at hcontent
  exact hint _ _ (hkeys.kind_eq hkey) hcontent

/-- **One update** overwrites what its changeset contains, whatever copy it goes out from. -/
theorem overwritten_update (he : e.IsTabular) (hkey : e.identity? = some key)
    (hstored : store.stored s id = some cells) {copy requested : Record e}
    (hcopy : copy.value key = .int id) {written : Written e Changeset} {changeset : Changeset}
    (hrun : run store.answer (ctx.update copy requested) s = (written, s'))
    (hok : written.result = .ok changeset) :
    let call : Call e := ⟨copy, requested, changeset⟩
    ∃ new, store.stored s' id = some new ∧
      (∀ i, call.Lists i → new i = store.cell i (requested.value i)) ∧
      ∀ i, ¬ call.Lists i → new i = cells i := by
  have hid := Context.isBlank_key_of_run_update_ok hkey hrun hok
  obtain rfl := Context.changeset_of_run_update_ok hkey hrun hok
  intro call
  have hlists : ∀ i, call.Lists i ↔ i ∈ Record.contributing .update copy requested :=
    fun i => Record.columnOf_mem_columns_iff he.isWritable
  simp only [hlists]
  rcases Context.run_update_ok he.isWritable hkey hid hrun hok with
    ⟨hnone, rfl⟩ | ⟨done, hanswer, haffected⟩
  · rw [hnone]
    exact ⟨cells, hstored, fun i hi => absurd hi List.not_mem_nil, fun i _ => rfl⟩
  · rw [hcopy] at hanswer
    exact store.execute_update (Record.isListing_contributing .update copy requested) hanswer
      haffected cells hstored

/-- What a run keeps up: the row and all copies have the key, what was written was drawn up from its
client's copy, and the row is what the calls have left of it. -/
structure Served (id : Int64) (cells : e.Position → Cell) (copies : List (Record e))
    (calls : List (Call e)) (final : e.Position → Cell) : Prop where
  keyed : final key = .int id
  copied : ∀ copy ∈ copies, copy.value key = .int id
  drawn : ∀ call ∈ calls, Call.ofClient call.client = call
  overwritten : store.Overwritten cells calls final

/-- The clients are all that is known of the calls. -/
theorem Served.map_ofClient {final : e.Position → Cell}
    (h : store.Served id cells copies calls final) :
    (calls.map Call.client).map Call.ofClient = calls := by
  rw [List.map_map]
  exact (List.map_congr_left h.drawn).trans (List.map_id' calls)

theorem Run.served (he : e.IsTabular) (hkeys : e.HasIntegerKeys) (hkey : e.identity? = some key)
    (hstored : store.stored start id = some cells) (hkeyed : cells key = .int id)
    (h : store.Run id start copies calls s) :
    ∃ final, store.stored s id = some final ∧ store.Served id cells copies calls final := by
  induction h with
  | start =>
    exact ⟨cells, hstored, hkeyed, fun _ h => absurd h List.not_mem_nil,
      fun _ h => absurd h List.not_mem_nil, .nil cells⟩
  | read h hrow' hrow hread ih =>
    obtain ⟨final, hfinal, hserved⟩ := ih
    obtain rfl := Option.some.inj (hfinal.symm.trans hrow')
    refine ⟨final, hfinal, { hserved with copied := fun copy hmem => ?_ }⟩
    rcases List.mem_cons.1 hmem with rfl | hmem
    · exact value_key_of_read he hkeys hkey hserved.keyed hrow hread
    · exact hserved.copied copy hmem
  | @update copies calls s s' copy requested written changeset h hcopy hrun hok ih =>
    obtain ⟨final, hfinal, hserved⟩ := ih
    have hcopy := hserved.copied copy hcopy
    have hid := Context.isBlank_key_of_run_update_ok hkey hrun hok
    obtain ⟨new, hnew, hlisted, hothers⟩ := overwritten_update he hkey hfinal hcopy hrun hok
    obtain rfl := Context.changeset_of_run_update_ok hkey hrun hok
    refine ⟨new, hnew, ?_, ?_, ?_, hserved.overwritten.concat hlisted hothers⟩
    · have hnot : ¬ Call.Lists ⟨copy, requested, Record.changeset .update copy requested⟩ key :=
        mt (Record.columnOf_mem_columns_iff he.isWritable).1
          (Record.key_not_mem_contributing hkey)
      rw [hothers key hnot, hserved.keyed]
    · intro other hmem
      rcases List.mem_cons.1 hmem with rfl | hmem
      · have hcurrent : (run store.answer (ctx.update copy requested) s).1.current =
            Record.merged .update copy requested := Context.current_run_update hkey hid
        rw [hrun] at hcurrent
        rw [hcurrent, Record.value_merged_of_identity (Entity.of_identity? hkey).1, hcopy]
      · exact hserved.copied other hmem
    · intro call hmem
      rcases List.mem_append.1 hmem with hmem | hmem
      · exact hserved.drawn call hmem
      · obtain rfl := List.mem_singleton.1 hmem
        rfl

/-- **The last write of a column stands.**  Let keys be integers.  After any number of clients'
updates, all of them successful, a column holds what the last call wrote that contains it, whatever
the clients' copies, and what it held before if no call does.  If no column is in two calls, every
client's change is in the row, and the same clients leave the same row in every other order. -/
theorem Run.last_write_stands (he : e.IsTabular) (hkeys : e.HasIntegerKeys)
    (hkey : e.identity? = some key) (hstored : store.stored start id = some cells)
    (hkeyed : cells key = .int id) (h : store.Run id start copies calls s) :
    ∃ final, store.stored s id = some final ∧
      (∀ i, (∀ call ∈ calls, ¬ call.Lists i) → final i = cells i) ∧
      (∀ before call after, calls = before ++ call :: after → ∀ i, call.Lists i →
        (∀ later ∈ after, ¬ later.Lists i) → final i = store.cell i (call.requested.value i)) ∧
      (calls.Pairwise Call.Apart →
        (∀ call ∈ calls, ∀ i, call.Lists i → final i = store.cell i (call.requested.value i)) ∧
        ∀ copies' calls' s', store.Run id start copies' calls' s' →
          (calls'.map Call.client).Perm (calls.map Call.client) →
          store.stored s' id = some final) := by
  obtain ⟨final, hfinal, hserved⟩ := h.served he hkeys hkey hstored hkeyed
  refine ⟨final, hfinal, hserved.overwritten.kept, hserved.overwritten.last,
    fun hapart => ⟨fun call hmem i => hserved.overwritten.of_apart hapart hmem, ?_⟩⟩
  intro copies' calls' s' h' hperm
  obtain ⟨final', hfinal', hserved'⟩ := h'.served he hkeys hkey hstored hkeyed
  have hcalls : calls'.Perm calls := by
    have hdrawn := hperm.map Call.ofClient
    rwa [hserved'.map_ofClient, hserved.map_ofClient] at hdrawn
  rw [hfinal', hserved.overwritten.eq_of_perm hapart hserved'.overwritten hcalls]

end RowStore

/-! ### Two clients of one job -/

section
open Catalog JobStore

/-- The rows of jobs, kept in memory. -/
def jobRows (book : Rulebook) : RowStore ⟨.sqlite, book⟩ job key where
  State := Shelf
  answer := answer
  stored := Shelf.rows
  cell := fun _ v => v.toCell
  execute_update := fun hlisting hanswer _ _ hold =>
    rows_of_execute_update hlisting hold hanswer

/-- A job on the first node, as every client reads it. -/
def readJob : Record job :=
  (Record.empty job).put "id" (.int 5) |>.put "node_id" (.int 1)

def readCells : job.Position → Cell :=
  fun i => (readJob.value i).toCell

theorem scan_readCells : Row.scan job (Row.listed job readCells) = .ok readJob := by
  have hcontent : ∀ i, (readCells i).content? (job.field i).kind = some (readJob.content i) := by
    intro i
    match i with
    | ⟨0, _⟩ | ⟨1, _⟩ | ⟨2, _⟩ | ⟨3, _⟩ => rfl
  obtain ⟨r, hok, hr⟩ := Row.scan_of_shows isTabular_job (Row.shows_listed isTabular_job readCells)
    fun i _ => hcontent i
  have hpersistable : ∀ i, (job.field i).isPersistable = true := by decide
  rw [hok, Record.ext (funext fun i => hr i (hpersistable i))]

def oneJob : Shelf :=
  noJobs.put 5 readCells

/-- One client moves the job to another node, the other gives it a source.  Neither undoes what the
other has written, whoever comes first. -/
theorem both_changes_of_job :
    let moved := readJob.put "node_id" (.int 2)
    let sourced := readJob.put "source_user_id" (.int 3)
    let update := fun requested s =>
      run (jobRows .builtin).answer (plainContext.update readJob requested) s
    ∃ final, (update sourced (update moved oneJob).2).2.rows 5 = some final ∧
      (update moved (update sourced oneJob).2).2.rows 5 = some final ∧
      final ⟨1, by decide⟩ = .int 2 ∧ final ⟨2, by decide⟩ = .int 3 := by
  intro moved sourced update
  let move : Call job := Call.ofClient (readJob, moved)
  let source : Call job := Call.ofClient (readJob, sourced)
  have hread : (jobRows .builtin).Run 5 oneJob [readJob] [] oneJob :=
    .read .start (oneJob.rows_put 5 readCells) (Row.shows_listed isTabular_job readCells)
      scan_readCells
  have hmoveFirst : (jobRows .builtin).Run 5 oneJob _ [move] (update moved oneJob).2 :=
    .update hread (List.mem_singleton_self _) rfl (by decide +kernel)
  have hmove : (jobRows .builtin).Run 5 oneJob _ [move, source]
      (update sourced (update moved oneJob).2).2 :=
    .update hmoveFirst (by simp) rfl (by decide +kernel)
  have hsourceFirst : (jobRows .builtin).Run 5 oneJob _ [source] (update sourced oneJob).2 :=
    .update hread (List.mem_singleton_self _) rfl (by decide +kernel)
  have hsource : (jobRows .builtin).Run 5 oneJob _ [source, move]
      (update moved (update sourced oneJob).2).2 :=
    .update hsourceFirst (by simp) rfl (by decide +kernel)
  have hapart : [move, source].Pairwise Call.Apart := by
    unfold Call.Apart Call.Lists
    decide +kernel
  obtain ⟨final, hfinal, -, -, hall⟩ := RowStore.Run.last_write_stands isTabular_job
    hasIntegerKeys_job (by decide) (oneJob.rows_put 5 readCells) rfl hmove
  obtain ⟨hchanges, horders⟩ := hall hapart
  refine ⟨final, hfinal, horders _ _ _ hsource (.swap _ _ _), ?_, ?_⟩
  · rw [hchanges move (by simp) ⟨1, by decide⟩ (by unfold Call.Lists; decide +kernel)]
    decide +kernel
  · rw [hchanges source (by simp) ⟨2, by decide⟩ (by unfold Call.Lists; decide +kernel)]
    decide +kernel

end

end RecordLayer
