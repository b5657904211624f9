import Mathlib.Data.List.Nodup
import RecordLayer.Proofs.Entity
import RecordLayer.Proofs.NameMap
import RecordLayer.Proofs.Sql.Expansion
import RecordLayer.Session

/-!
# What writing a record sends

A write draws up a changeset, words a statement from its columns, and fills the statement's
parameters from its params.  For an entity whose table and columns are identifiers, no two of the
columns the same (`Entity.IsWritable`), the three agree: the statement that is sent lists the
columns of the contributing fields in declaration order, and the values bound are the values asked
for, in the same order (`sendInsert_eq`, `sendUpdate_eq`).
-/

namespace RecordLayer
open Text Dialogue

/-- The answer says that the statement was carried out. -/
def Statement.succeeded : (q : Statement) → q.Answer → Bool
  | fetch _ _,   answer => answer.toBool
  | execute _ _, answer => answer.toBool

/-! ### Contributing fields -/

namespace Record
variable {e : Entity} {mode : DiffMode} {current requested : Record e}

theorem mem_contributing {i : e.Position} :
    i ∈ contributing mode current requested ↔ contributes mode current requested i = true := by
  simp [contributing, Entity.positions, List.mem_filter, List.mem_finRange]

theorem isPersistable_of_contributes {i : e.Position}
    (h : contributes mode current requested i = true) :
    (e.field i).isPersistable = true ∧ (e.field i).identity = false := by
  simp only [contributes, Bool.and_eq_true, Bool.not_eq_true'] at h
  exact h.1

theorem nodup_contributing : (contributing mode current requested).Nodup :=
  (List.nodup_finRange _).filter _

theorem columns_changeset : (changeset mode current requested).columns =
    (contributing mode current requested).map e.columnOf := by
  simp [changeset, Changeset.ofChanges, Changeset.columns, change, Entity.columnOf,
    Function.comp_def]

theorem isEmpty_changeset : (changeset mode current requested).isEmpty =
    (contributing mode current requested).isEmpty := by
  simp [changeset, Changeset.ofChanges, Changeset.isEmpty]

/-- Each contributing field is bound under its column. -/
theorem get?_params_changeset (he : e.IsWritable) {i : e.Position}
    (h : i ∈ contributing mode current requested) :
    (changeset mode current requested).params.get? (e.columnOf i) = some (requested.value i) := by
  refine NameMap.get?_ofList ?_ ?_
  · rw [List.map_map, List.map_map]
    refine List.Nodup.map_on (fun j hj k hk hjk => ?_) nodup_contributing
    exact he.columnOf_injective (isPersistable_of_contributes (mem_contributing.1 hj)).1
      (isPersistable_of_contributes (mem_contributing.1 hk)).1 hjk
  · exact List.mem_map.2 ⟨requested.change i, List.mem_map.2 ⟨i, h, rfl⟩, rfl⟩

/-- Columns and values of fields whose columns are bound stand in the same order. -/
theorem forall₂_bound {params : Params} {positions : List e.Position}
    (h : ∀ i ∈ positions, params.get? (e.columnOf i) = some (requested.value i)) :
    List.Forall₂ (fun c v => params.get? c = some v) (positions.map e.columnOf)
      (positions.map requested.value) :=
  List.forall₂_map_left_iff.2 (List.forall₂_map_right_iff.2 (List.forall₂_same.2 h))

theorem isIdentifier_of_mem_columns (he : e.IsWritable) {c : String}
    (h : c ∈ (contributing mode current requested).map e.columnOf) :
    isIdentifier c.toList = true := by
  obtain ⟨i, hi, rfl⟩ := List.mem_map.1 h
  exact he.isIdentifier_columnOf (isPersistable_of_contributes (mem_contributing.1 hi)).1

/-- The columns of a changeset are those of the contributing fields. -/
theorem columnOf_mem_columns_iff (he : e.IsWritable) {i : e.Position} :
    e.columnOf i ∈ (changeset mode current requested).columns ↔
      i ∈ contributing mode current requested := by
  rw [columns_changeset]
  refine ⟨fun h => ?_, List.mem_map_of_mem⟩
  obtain ⟨j, hj, hcolumn⟩ := List.mem_map.1 h
  obtain ⟨hstored, -⟩ := isPersistable_of_contributes (mem_contributing.1 hj)
  cases hi : (e.field i).isPersistable with
  | true => rwa [← he.columnOf_injective hstored hi hcolumn]
  | false =>
    -- a transient field has the empty name for a column, which is no identifier
    have hnone : (e.field i).column = none := by simpa [Field.isPersistable] using hi
    have hidentifier := he.isIdentifier_columnOf hstored
    rw [hcolumn, Entity.columnOf, hnone] at hidentifier
    cases hidentifier

/-- The key never contributes. -/
theorem key_not_mem_contributing {key : e.Position} (hkey : e.identity? = some key) :
    key ∉ contributing mode current requested := by
  intro hmem
  obtain ⟨-, hnot⟩ := isPersistable_of_contributes (mem_contributing.1 hmem)
  rw [(Entity.of_identity? hkey).1] at hnot
  cases hnot

/-- The key's column is not among those that are written. -/
theorem columnOf_key_not_mem_contributing (he : e.IsWritable) {key : e.Position}
    (hkey : e.identity? = some key) :
    e.columnOf key ∉ (contributing mode current requested).map e.columnOf := by
  rw [← columns_changeset, columnOf_mem_columns_iff he]
  exact key_not_mem_contributing hkey

/-- The key is not taken over. -/
theorem value_merged_of_identity {i : e.Position} (h : (e.field i).identity = true) :
    (merged mode current requested).value i = current.value i := by
  have hnot : contributes mode current requested i = false := by simp [contributes, h]
  rw [value, content_merged, hnot, if_neg Bool.false_ne_true, value]

end Record

/-! ### What is sent -/

namespace Context
variable {e : Entity} (ctx : Context) (current requested : Record e)

/-- The statement of an insert, its values bound. -/
def insertSql (positions : List e.Position) : String :=
  Sql.insertText ctx.dialect e.table (positions.map e.columnOf) (positions.map requested.value)
    (ctx.returning? e)

/-- The statement of an update of the row with a key, its values bound. -/
def updateSql (positions : List e.Position) (key : e.Position) (id : Value) : String :=
  Sql.updateText ctx.dialect e.table (positions.map e.columnOf) (positions.map requested.value)
    (e.columnOf key) id

/-- The statement that an insert sends. -/
def insertRequest : Statement :=
  let positions := Record.contributing .insert current requested
  let values := positions.map requested.value
  if (ctx.returning? e).isSome then .fetch (ctx.insertSql requested positions) values
  else .execute (ctx.insertSql requested positions) values

theorem isIdentifier_of_returning? (he : e.IsWritable) :
    ∀ key ∈ ctx.returning? e, isIdentifier key.toList = true := by
  intro key hkey
  rw [returning?] at hkey
  split at hkey
  · obtain ⟨i, hi, hc⟩ := Option.bind_eq_some_iff.1 hkey
    exact he.columns i key hc
  · cases hkey

theorem expand_insert (he : e.IsWritable) :
    Sql.expand (Sql.insertStatement (Record.changeset .insert current requested).columns e.table
        (ctx.returning? e)) (Record.changeset .insert current requested).params ctx.dialect =
      .ok (ctx.insertSql requested (Record.contributing .insert current requested),
        (Record.contributing .insert current requested).map requested.value) := by
  rw [Record.columns_changeset]
  exact Sql.expand_insertStatement he.table (fun c hc => Record.isIdentifier_of_mem_columns he hc)
    (ctx.isIdentifier_of_returning? he)
    (Record.forall₂_bound fun i hi => Record.get?_params_changeset he hi)

/-- An insert that returns its key is one query. -/
theorem sendInsert_of_returning (he : e.IsWritable) {key : String}
    (hkey : ctx.returning? e = some key) :
    ctx.sendInsert e (Record.changeset .insert current requested) =
      .ask (.fetch (ctx.insertSql requested (Record.contributing .insert current requested))
        ((Record.contributing .insert current requested).map requested.value))
        fun answer => .done (answer >>= insertedRows) := by
  have h := ctx.expand_insert current requested he
  rw [hkey] at h
  simp only [sendInsert, hkey, Session.exchange, h]
  rfl

/-- An insert whose dialect has no returning clause is one statement. -/
theorem sendInsert_of_not_returning (he : e.IsWritable) (hkey : ctx.returning? e = none) :
    ctx.sendInsert e (Record.changeset .insert current requested) =
      .ask (.execute (ctx.insertSql requested (Record.contributing .insert current requested))
        ((Record.contributing .insert current requested).map requested.value))
        fun answer => .done (answer >>= fun done => .ok ⟨done.affected, done.lastId⟩) := by
  have h := ctx.expand_insert current requested he
  rw [hkey] at h
  simp only [sendInsert, hkey, Session.exchange, h]
  rfl

/-- What an insert makes of the answer to its statement. -/
def insertReport : (q : Statement) → q.Answer → Except Failure InsertResult
  | .fetch _ _,   answer => answer >>= insertedRows
  | .execute _ _, answer => answer >>= fun done => .ok ⟨done.affected, done.lastId⟩

/-- A report is made only if the statement was carried out. -/
theorem succeeded_of_insertReport {q : Statement} {answer : q.Answer} {result : InsertResult}
    (h : insertReport q answer = .ok result) : q.succeeded answer = true := by
  cases q <;> cases answer with
  | error failure => cases h
  | ok _ => rfl

/-- An insert is one statement. -/
theorem sendInsert_eq (he : e.IsWritable) :
    ctx.sendInsert e (Record.changeset .insert current requested) =
      .ask (ctx.insertRequest current requested) fun x => .done (insertReport _ x) := by
  rw [insertRequest]
  cases hkey : ctx.returning? e with
  | some key => exact ctx.sendInsert_of_returning current requested he hkey
  | none => exact ctx.sendInsert_of_not_returning current requested he hkey

/-- An update is one statement, which binds the key last. -/
theorem sendUpdate_eq (he : e.IsWritable) {key : e.Position} (hkey : e.identity? = some key)
    (id : Value) :
    ctx.sendUpdate e (Record.changeset .update current requested) (e.columnOf key) id =
      .ask (.execute
        (ctx.updateSql requested (Record.contributing .update current requested) key id)
        ((Record.contributing .update current requested).map requested.value ++ [id]))
        fun answer => .done (answer >>= fun done =>
          if done.affected = 0 then .error .notFound else .ok ()) := by
  obtain ⟨-, hstored⟩ := Entity.of_identity? hkey
  have hbound : ∀ i ∈ Record.contributing .update current requested,
      ((Record.changeset .update current requested).bind (e.columnOf key) id).params.get?
        (e.columnOf i) = some (requested.value i) := by
    intro i hi
    have hne : e.columnOf i ≠ e.columnOf key := fun h =>
      Record.columnOf_key_not_mem_contributing he hkey (List.mem_map.2 ⟨i, hi, h⟩)
    rw [Changeset.bind, NameMap.get?_insert, if_neg hne]
    exact Record.get?_params_changeset he hi
  have hid : ((Record.changeset .update current requested).bind (e.columnOf key) id).params.get?
      (e.columnOf key) = some id := by
    rw [Changeset.bind, NameMap.get?_insert, if_pos rfl]
  have h := Sql.expand_updateStatement ctx.dialect he.table
    (fun c hc => Record.isIdentifier_of_mem_columns he hc) (he.isIdentifier_columnOf hstored)
    (Record.forall₂_bound hbound) hid
  rw [← Record.columns_changeset] at h
  simp only [sendUpdate, Session.exchange, h]
  rw [Record.columns_changeset]
  rfl

/-! ### Inserts -/

variable {ctx current requested}

/-- How an insert ends once its report is there. -/
def insertEnd (current requested : Record e) : Except Failure InsertResult → Written e InsertResult
  | .error failure => ⟨Record.merged .insert current requested,
      some (Record.changeset .insert current requested), .error failure⟩
  | .ok result => ⟨identified (Record.merged .insert current requested) result,
      some (Record.changeset .insert current requested), .ok result⟩

@[simp] theorem result_insertEnd (report : Except Failure InsertResult) :
    (insertEnd current requested report).result = report := by
  cases report <;> rfl

/-- An insert of a record that breaks rules is over at once. -/
theorem insert_of_not_valid {failure : Failure} (h : ctx.validate requested = .error failure) :
    ctx.insert current requested = .done ⟨current, none, .error failure⟩ := by
  simp only [insert, h]

/-- An insert that is given nothing is over at once. -/
theorem insert_of_contributing_eq_nil (hvalid : ctx.validate requested = .ok ())
    (hnone : Record.contributing .insert current requested = []) :
    ctx.insert current requested = .done ⟨current, none, .error (.emptyChangeset e.table)⟩ := by
  have hempty : (Record.changeset .insert current requested).isEmpty = true := by
    rw [Record.isEmpty_changeset, hnone]
    rfl
  simp only [insert, hvalid, hempty, if_true]
  rw [Record.merged, hnone]
  rfl

/-- An insert that is not refused sends its changeset, and ends as the report says. -/
theorem insert_of_valid (hvalid : ctx.validate requested = .ok ())
    (hsome : Record.contributing .insert current requested ≠ []) :
    ctx.insert current requested =
      (ctx.sendInsert e (Record.changeset .insert current requested)).bind fun report =>
        .done (insertEnd current requested report) := by
  have hempty : (Record.changeset .insert current requested).isEmpty = false := by
    rw [Record.isEmpty_changeset]
    simpa using hsome
  simp only [insert, hvalid, hempty, Bool.false_eq_true, if_false]
  refine congrArg (Dialogue.bind _) (funext fun report => ?_)
  cases report <;> rfl

/-- An insert that is not refused is one statement, and takes over what it sent whatever the
answer. -/
theorem insert_of_contributing_ne_nil (he : e.IsWritable) (hvalid : ctx.validate requested = .ok ())
    (hsome : Record.contributing .insert current requested ≠ []) :
    ctx.insert current requested = .ask (ctx.insertRequest current requested) fun x =>
      .done (insertEnd current requested (insertReport _ x)) := by
  rw [insert_of_valid hvalid hsome, sendInsert_eq _ _ _ he]
  rfl

/-! ### Updates -/

/-- An update of an entity without a key is over at once. -/
theorem update_of_identity?_eq_none (h : e.identity? = none) :
    ctx.update current requested = .done ⟨current, none, .error (.missingIdentity e.table)⟩ := by
  simp only [update, h]

/-- An update of a record whose key is blank is over at once. -/
theorem update_of_isBlank {key : e.Position} (hkey : e.identity? = some key)
    (hid : (current.value key).isBlank = true) :
    ctx.update current requested = .done ⟨current, none, .error (.missingIdentity e.table)⟩ := by
  simp only [update, hkey, Entity.identityColumn?_eq hkey, hid, if_true]

/-- An update without a difference is over at once. -/
theorem update_of_contributing_eq_nil {key : e.Position} (hkey : e.identity? = some key)
    (hid : (current.value key).isBlank = false)
    (hnone : Record.contributing .update current requested = []) :
    ctx.update current requested =
      .done ⟨current, none, .ok (Record.changeset .update current requested)⟩ := by
  have hempty : (Record.changeset .update current requested).isEmpty = true := by
    rw [Record.isEmpty_changeset, hnone]
    rfl
  simp only [update, hkey, Entity.identityColumn?_eq hkey, hid, hempty, if_true,
    Bool.false_eq_true, if_false]
  rw [Record.merged, hnone]
  rfl

/-- An update with a difference sends it, and takes it over whatever the answer. -/
theorem update_of_contributing_ne_nil {key : e.Position} (hkey : e.identity? = some key)
    (hid : (current.value key).isBlank = false)
    (hsome : Record.contributing .update current requested ≠ []) :
    ctx.update current requested =
      (ctx.sendUpdate e (Record.changeset .update current requested) (e.columnOf key)
        (current.value key)).bind fun answer =>
          .done ⟨Record.merged .update current requested,
            some (Record.changeset .update current requested),
            answer.map fun () => Record.changeset .update current requested⟩ := by
  have hempty : (Record.changeset .update current requested).isEmpty = false := by
    rw [Record.isEmpty_changeset]
    simpa using hsome
  simp only [update, hkey, Entity.identityColumn?_eq hkey, hid, hempty, Bool.false_eq_true,
    if_false]
  rfl

/-! ### What a write that succeeds has been answered -/

variable {σ : Type} {answer : Answerer Statement Statement.Answer σ} {s s' : σ}

/-- An update ends with the difference taken over, whatever the backend answers. -/
theorem current_run_update {key : e.Position} (hkey : e.identity? = some key)
    (hid : (current.value key).isBlank = false) :
    (run answer (ctx.update current requested) s).1.current =
      Record.merged .update current requested := by
  by_cases hsome : Record.contributing .update current requested = []
  · rw [update_of_contributing_eq_nil hkey hid hsome, Record.merged, hsome]
    rfl
  · rw [update_of_contributing_ne_nil hkey hid hsome, run_bind]
    rfl

/-- Nothing but the key is taken over from a report. -/
theorem content_identified_of_ne {key : e.Position} (hkey : e.identity? = some key)
    (result : InsertResult) (r : Record e) {i : e.Position} (hi : i ≠ key) :
    (identified r result).content i = r.content i := by
  cases hid : result.lastId with
  | none => simp only [identified, hkey, hid]
  | some id =>
    simp only [identified, hkey, hid, Record.assign?]
    cases (e.field key).kind.read? (.int id) with
    | none => rfl
    | some x => exact Record.content_set_of_ne hi

/-- The key that came back is taken over. -/
theorem value_identified (he : e.HasIntegerKeys) {key : e.Position} (hkey : e.identity? = some key)
    {id : Int64} {result : InsertResult} (hid : result.lastId = some id) (r : Record e) :
    (identified r result).value key = .int id := by
  obtain ⟨x, hx, hvalue⟩ : ∃ x, (e.field key).kind.read? (.int id) = some x ∧
      (e.field key).kind.toValue x = .int id := by
    rw [he.kind_eq hkey]
    exact ⟨id, rfl, rfl⟩
  have hset : identified r result = r.set key x := by
    simp only [identified, hkey, hid, Record.assign?, hx, Option.map_some, Option.getD_some]
  rw [hset, Record.value, Record.content_set_self, hvalue]

/-- An insert that succeeds has sent its contributing fields, and leaves the record with the key
that came back. -/
theorem run_insert_ok {written : Written e InsertResult} {result : InsertResult}
    (hrun : run answer (ctx.insert current requested) s = (written, s'))
    (hok : written.result = .ok result) :
    run answer (ctx.sendInsert e (Record.changeset .insert current requested)) s =
        (.ok result, s') ∧
      written.current = identified (Record.merged .insert current requested) result := by
  cases hvalid : ctx.validate requested with
  | error failure =>
    rw [insert_of_not_valid hvalid] at hrun
    cases hrun
    cases hok
  | ok valid =>
    by_cases hnone : Record.contributing .insert current requested = []
    · rw [insert_of_contributing_eq_nil hvalid hnone] at hrun
      cases hrun
      cases hok
    · rw [insert_of_valid hvalid hnone, run_bind] at hrun
      generalize run answer (ctx.sendInsert e _) s = sent at hrun ⊢
      obtain ⟨sent, t⟩ := sent
      cases sent with
      | error failure =>
        cases hrun
        cases hok
      | ok result' =>
        cases hrun
        cases hok
        exact ⟨rfl, rfl⟩

/-- An insert that is not refused has sent its statement, whatever becomes of it, and succeeds only
if that was carried out. -/
theorem run_insert (he : e.IsWritable) (hvalid : ctx.validate requested = .ok ())
    (hsome : Record.contributing .insert current requested ≠ [])
    {written : Written e InsertResult}
    (hrun : run answer (ctx.insert current requested) s = (written, s')) :
    ∃ x, answer (ctx.insertRequest current requested) s = (x, s') ∧
      ∀ result, written.result = .ok result → Statement.succeeded _ x = true := by
  rw [insert_of_contributing_ne_nil he hvalid hsome] at hrun
  obtain ⟨hwritten, hs'⟩ := Prod.mk.inj hrun
  refine ⟨(answer (ctx.insertRequest current requested) s).1, Prod.ext rfl hs', ?_⟩
  intro result hresult
  rw [← hwritten] at hresult
  exact succeeded_of_insertReport ((result_insertEnd _).symm.trans hresult)

/-- The statement of an insert that succeeds, and how its report was read. -/
theorem run_sendInsert_ok (he : e.IsWritable) {result : InsertResult}
    (hrun : run answer (ctx.sendInsert e (Record.changeset .insert current requested)) s =
      (.ok result, s')) :
    (∃ rows, ctx.returning? e ≠ none ∧
      answer (.fetch (ctx.insertSql requested (Record.contributing .insert current requested))
        ((Record.contributing .insert current requested).map requested.value)) s = (.ok rows, s') ∧
      insertedRows rows = .ok result) ∨
    (∃ done, ctx.returning? e = none ∧
      answer (.execute (ctx.insertSql requested (Record.contributing .insert current requested))
        ((Record.contributing .insert current requested).map requested.value)) s = (.ok done, s') ∧
      result = ⟨done.affected, done.lastId⟩) := by
  cases hkey : ctx.returning? e with
  | some key =>
    rw [sendInsert_of_returning ctx current requested he hkey, run] at hrun
    refine .inl ?_
    generalize hsent : answer _ s = sent at hrun
    obtain ⟨rows, t⟩ := sent
    cases rows with
    | error failure => cases hrun
    | ok rows =>
      obtain ⟨hread, ht⟩ := Prod.mk.inj hrun
      obtain rfl : t = s' := ht
      exact ⟨rows, Option.some_ne_none key, rfl, hread⟩
  | none =>
    rw [sendInsert_of_not_returning ctx current requested he hkey, run] at hrun
    refine .inr ?_
    generalize hsent : answer _ s = sent at hrun
    obtain ⟨done, t⟩ := sent
    cases done with
    | error failure => cases hrun
    | ok done =>
      obtain ⟨hread, ht⟩ := Prod.mk.inj hrun
      obtain rfl : t = s' := ht
      exact ⟨done, rfl, rfl, (Except.ok.inj hread).symm⟩

/-- An update that succeeds went out from a record with a key. -/
theorem isBlank_key_of_run_update_ok {key : e.Position} (hkey : e.identity? = some key)
    {written : Written e Changeset} {changeset : Changeset}
    (hrun : run answer (ctx.update current requested) s = (written, s'))
    (hok : written.result = .ok changeset) : (current.value key).isBlank = false := by
  cases hid : (current.value key).isBlank with
  | false => rfl
  | true =>
    rw [update_of_isBlank hkey hid] at hrun
    cases hrun
    cases hok

/-- An update that succeeds returns the changeset that was drawn up. -/
theorem changeset_of_run_update_ok {key : e.Position} (hkey : e.identity? = some key)
    {written : Written e Changeset} {changeset : Changeset}
    (hrun : run answer (ctx.update current requested) s = (written, s'))
    (hok : written.result = .ok changeset) :
    changeset = Record.changeset .update current requested := by
  have hid := isBlank_key_of_run_update_ok hkey hrun hok
  by_cases hnone : Record.contributing .update current requested = []
  · rw [update_of_contributing_eq_nil hkey hid hnone] at hrun
    cases hrun
    exact (Except.ok.inj hok).symm
  · rw [update_of_contributing_ne_nil hkey hid hnone, run_bind] at hrun
    generalize run answer (ctx.sendUpdate e _ _ _) s = sent at hrun
    obtain ⟨sent, t⟩ := sent
    cases sent with
    | error failure =>
      cases hrun
      cases hok
    | ok _ =>
      cases hrun
      exact (Except.ok.inj hok).symm

/-- An update that succeeds has sent its contributing fields and reached a row, or there were
none. -/
theorem run_update_ok (he : e.IsWritable) {key : e.Position} (hkey : e.identity? = some key)
    (hid : (current.value key).isBlank = false) {written : Written e Changeset}
    {changeset : Changeset}
    (hrun : run answer (ctx.update current requested) s = (written, s'))
    (hok : written.result = .ok changeset) :
    Record.contributing .update current requested = [] ∧ s' = s ∨
    ∃ done, answer (.execute
        (ctx.updateSql requested (Record.contributing .update current requested) key
          (current.value key))
        ((Record.contributing .update current requested).map requested.value ++
          [current.value key])) s = (.ok done, s') ∧ done.affected ≠ 0 := by
  by_cases hnone : Record.contributing .update current requested = []
  · rw [update_of_contributing_eq_nil hkey hid hnone] at hrun
    exact .inl ⟨hnone, (Prod.mk.inj hrun).2.symm⟩
  · rw [update_of_contributing_ne_nil hkey hid hnone, sendUpdate_eq ctx current requested he hkey,
      run_bind, run, run] at hrun
    refine .inr ?_
    generalize hsent : answer _ s = sent at hrun
    obtain ⟨done, t⟩ := sent
    cases done with
    | error failure =>
      cases hrun
      cases hok
    | ok done =>
      obtain ⟨hwritten, ht⟩ := Prod.mk.inj hrun
      obtain rfl : t = s' := ht
      refine ⟨done, rfl, fun hzero => ?_⟩
      have hresult : (Except.ok done >>= fun done : Done =>
          if done.affected = 0 then Except.error Failure.notFound else .ok ()) =
          .error .notFound := if_pos hzero
      rw [← hwritten] at hok
      simp only [run, hresult] at hok
      cases hok

end Context

end RecordLayer
