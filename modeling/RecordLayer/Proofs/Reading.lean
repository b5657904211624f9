import RecordLayer.Session

/-!
# What reading an answer fails with

Some failures are refusals: they are there before a backend is asked.  A failure to read what the
backend answered is none of them (`Unrefused`), however the readers of cells, rows and reports are
put together; a failure to put a statement in the dialect's form is one of a single kind
(`Sql.expand_error`).
-/

namespace RecordLayer

namespace Failure

/-- The operation was refused: rules are broken, nothing is to be written, or a key or a parameter
is missing. -/
def isRefusal : Failure → Bool
  | validation _ | emptyChangeset _ | missingIdentity _ | missingParam _ => true
  | _ => false

end Failure

/-! ### Results that are no refusals -/

/-- The result is not that something was refused. -/
def Unrefused {α : Type} (result : Except Failure α) : Prop :=
  ∀ failure, result = .error failure → failure.isRefusal = false

namespace Unrefused
variable {α β : Type}

theorem ok (a : α) : Unrefused (.ok a) :=
  fun _ h => by cases h

theorem notFound : Unrefused (.error .notFound : Except Failure α) := by
  intro failure h
  cases h
  rfl

theorem bind {x : Except Failure α} {f : α → Except Failure β} (hx : Unrefused x)
    (hf : ∀ a, Unrefused (f a)) : Unrefused (x >>= f) := by
  intro failure h
  cases x with
  | error failure' => exact hx failure (congrArg Except.error (Except.error.inj h))
  | ok a => exact hf a failure h

theorem mapM {f : α → Except Failure β} (hf : ∀ a, Unrefused (f a)) (l : List α) :
    Unrefused (l.mapM f) := by
  induction l with
  | nil => exact ok []
  | cons a l ih =>
    rw [List.mapM_cons]
    exact bind (hf a) fun b => bind ih fun bs => ok (b :: bs)

theorem foldlM {f : β → α → Except Failure β} (hf : ∀ b a, Unrefused (f b a)) (l : List α)
    (b : β) : Unrefused (l.foldlM f b) := by
  induction l generalizing b with
  | nil => exact ok b
  | cons a l ih =>
    rw [List.foldlM_cons]
    exact bind (hf b a) ih

end Unrefused

/-! ### Reading answers -/

theorem Cell.unrefused_decode (column : String) (cell : Cell) :
    Unrefused (cell.decode column) := by
  intro failure h
  rw [decode] at h
  cases hread : cell.read with
  | error message =>
    rw [hread] at h
    cases h
    rfl
  | ok v =>
    rw [hread] at h
    cases h

theorem Row.unrefused_scanCell {e : Entity} (r : Record e) (column : String) (cell : Cell) :
    Unrefused (scanCell r column cell) := by
  rw [scanCell]
  split
  · exact .ok r
  · refine .bind (cell.unrefused_decode column) fun v => ?_
    split
    · exact .ok _
    · intro failure h
      cases h
      rfl

theorem Row.unrefused_scan (e : Entity) (row : Row) : Unrefused (scan e row) := by
  rw [scan, scanOver]
  exact .foldlM (fun r ⟨column, cell⟩ => unrefused_scanCell r column cell) row (Record.empty e)

theorem Row.unrefused_decode (row : Row) : Unrefused row.decode := by
  rw [decode]
  exact .mapM (fun ⟨column, cell⟩ => cell.unrefused_decode column) row

theorem Rows.unrefused_ofAnswer (answer : List Row) : Unrefused (ofAnswer answer) := by
  unfold ofAnswer
  exact .bind (.mapM Row.unrefused_decode answer) fun _ => .ok _

/-- The first row of an answer that has any. -/
theorem Rows.unrefused_firstRow (answer : List Row) : Unrefused (do
    let table ← ofAnswer answer
    match table.rows with
    | row :: _ => .ok row
    | [] => .error .notFound) := by
  refine .bind (unrefused_ofAnswer answer) fun table => ?_
  split
  · exact .ok _
  · exact .notFound

theorem Context.unrefused_insertedRows (rows : List Row) : Unrefused (insertedRows rows) := by
  cases rows with
  | nil => exact .ok _
  | cons row rows =>
    refine .bind ?_ fun v => .ok _
    cases row with
    | nil =>
      intro failure h
      cases h
      rfl
    | cons entry row => exact entry.2.unrefused_decode entry.1

/-- A statement lacks a parameter, or it can be put in the dialect's form. -/
theorem Sql.fill_error {params : Params} {dialect : Dialect} {n : Nat} {ps : List Piece}
    {failure : Failure} (h : fill params dialect n ps = .error failure) :
    ∃ name, failure = .missingParam name := by
  induction ps generalizing n with
  | nil => cases h
  | cons p ps ih =>
    cases p with
    | text content =>
      rw [fill] at h
      cases hrest : fill params dialect n ps with
      | error failure' =>
        rw [hrest] at h
        cases h
        exact ih hrest
      | ok filled =>
        rw [hrest] at h
        cases h
    | param name =>
      rw [fill] at h
      split at h
      · cases h
        exact ⟨name, rfl⟩
      · cases hrest : fill params dialect (n + 1) ps with
        | error failure' =>
          rw [hrest] at h
          cases h
          exact ih hrest
        | ok filled =>
          rw [hrest] at h
          cases h

theorem Sql.expand_error {sql : String} {params : Params} {dialect : Dialect} {failure : Failure}
    (h : expand sql params dialect = .error failure) : ∃ name, failure = .missingParam name := by
  rw [expand] at h
  cases hfill : fill params dialect 0 (pieces sql) with
  | error failure' =>
    rw [hfill] at h
    cases h
    exact fill_error hfill
  | ok filled =>
    rw [hfill] at h
    cases h

end RecordLayer
