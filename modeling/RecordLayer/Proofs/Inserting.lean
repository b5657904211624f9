import RecordLayer.Proofs.Reading
import RecordLayer.Proofs.Updating

/-!
# What an insert sends

An insert writes the fields that the record asked for gives, in one statement, and the record as it
stands has no say in it (`insert_sends_given`).  Columns, placeholders and values are drawn from the
same positions, in declaration order; all columns are bound, so that nothing is missing when the
placeholders are put in.  What a failed insert has taken over it takes over again, so that trying
once more is the same insert.
-/

namespace RecordLayer
open Dialogue

/-- The failure with which a statement was answered. -/
def Statement.failure? : (q : Statement) → q.Answer → Option Failure
  | fetch _ _,   .error failure => some failure
  | fetch _ _,   .ok _          => none
  | execute _ _, .error failure => some failure
  | execute _ _, .ok _          => none

namespace Record
variable {e : Entity}

/-- The fields that an insert is to write, in declaration order: the stored ones besides the key
that are not blank. -/
def given (requested : Record e) : List e.Position :=
  e.positions.filter fun i =>
    (e.field i).column.isSome ∧ (e.field i).identity = false ∧ (requested.value i).isBlank = false

theorem contributing_insert (current requested : Record e) :
    contributing .insert current requested = requested.given := by
  refine List.filter_congr fun i _ => ?_
  rw [Bool.eq_iff_iff]
  simp [contributes, Field.isPersistable, isBlank, and_assoc]

theorem changeset_insert (current other requested : Record e) :
    changeset .insert current requested = changeset .insert other requested := by
  rw [changeset, changeset, contributing_insert, contributing_insert]

/-- What an insert takes over it would take over once more. -/
theorem merged_insert_merged (current requested : Record e) :
    merged .insert (merged .insert current requested) requested =
      merged .insert current requested := by
  ext i
  have hsame : contributes .insert (merged .insert current requested) requested i =
      contributes .insert current requested i := rfl
  rw [content_merged, content_merged, hsame]
  cases contributes .insert current requested i <;> rfl

end Record

/-- The column of the key, if it is stored. -/
theorem Entity.identityColumn?_eq_map (e : Entity) :
    e.identityColumn? = e.identity?.map e.columnOf := by
  cases hkey : e.identity? with
  | some key => exact e.identityColumn?_eq hkey
  | none => rw [identityColumn?, hkey]; rfl

namespace Context
variable {e : Entity}

/-- A report lacks a parameter only if the backend said so. -/
theorem failure?_of_insertReport {q : Statement} {answer : q.Answer} {name : String}
    (h : insertReport q answer = .error (.missingParam name)) :
    q.failure? answer = some (.missingParam name) := by
  cases q with
  | fetch sql values =>
    cases answer with
    | error failure => cases h; rfl
    | ok rows => cases unrefused_insertedRows rows _ h
  | execute sql values =>
    cases answer with
    | error failure => cases h; rfl
    | ok done => cases h

/-- An insert that went out ends as it does when it goes out again. -/
theorem insertEnd_merged (current requested : Record e) :
    insertEnd (Record.merged .insert current requested) requested =
      insertEnd current requested := by
  funext report
  cases report <;>
    simp only [insertEnd, Record.merged_insert_merged, Record.changeset_insert _ current]

end Context

/-! ### A node that is added -/

section
open Catalog

/-- The node asked for has a key of its own, and no detail or times; none of these is sent. -/
def wantedNode : Record node :=
  (newNode "beta" "b-1" default).put "id" (.int 7) |>.put "inserted_at" .null
    |>.put "updated_at" .null

/-- A backend that runs into its time limit once, and then adds the row. -/
def slowToInsert : Script :=
  ⟨[.fail (.timeout ⟨1, 0⟩), .rows [[("id", .int 12)]]], []⟩

end

end RecordLayer
