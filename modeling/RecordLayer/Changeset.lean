import RecordLayer.Json
import RecordLayer.NameMap
import RecordLayer.Record

/-!
# Changesets

What a write has to send: the difference between a record as it stands and the record asked
for, field by field in declaration order, with the parameters those fields bind.

The key and transient fields never take part.  A blank request asks for nothing, except that a
plain integer may be changed to zero; an insert sends everything that is asked for, an update
only what differs.
-/

namespace RecordLayer

inductive DiffMode where
  | insert
  | update
deriving DecidableEq, Repr

/-- One column to write. -/
structure Change where
  field : String
  column : String
  value : Value
deriving DecidableEq

abbrev Params := NameMap Value

structure Changeset where
  changes : List Change
  params : Params
deriving DecidableEq

namespace Changeset

/-- The changes in order, each bound under its column's name. -/
def ofChanges (changes : List Change) : Changeset where
  changes := changes
  params := .ofList (changes.map fun c => (c.column, c.value))

/-- The columns to write, in order. -/
def columns (c : Changeset) : List String :=
  c.changes.map (·.column)

def isEmpty (c : Changeset) : Bool :=
  c.changes.isEmpty

/-- Adds a parameter that is no change, such as the key in a condition. -/
def bind (c : Changeset) (name : String) (value : Value) : Changeset :=
  { c with params := c.params.insert name value }

def toJson (c : Changeset) : Json :=
  .object [
    ("changes", .list (c.changes.map fun change =>
      .object [("field", .text change.field), ("column", .text change.column),
        ("value", change.value.toJson)])),
    ("params", .object (c.params.entries.map fun (name, value) => (name, value.toJson)))]

end Changeset

namespace Record
variable {e : Entity}

/-- The field has something to send. -/
def contributes (mode : DiffMode) (current requested : Record e) (i : e.Position) : Bool :=
  let field := e.field i
  field.isPersistable && !field.identity &&
    match mode with
    | .insert => !requested.isBlank i
    | .update => !current.same requested i && (field.kind == .int || !requested.isBlank i)

/-- The fields that have something to send, in declaration order. -/
def contributing (mode : DiffMode) (current requested : Record e) : List e.Position :=
  e.positions.filter (contributes mode current requested)

def change (requested : Record e) (i : e.Position) : Change where
  field := (e.field i).name
  column := (e.field i).column.getD ""
  value := requested.value i

def changeset (mode : DiffMode) (current requested : Record e) : Changeset :=
  .ofChanges ((contributing mode current requested).map requested.change)

/-- The record as it stands after the contributing fields are taken over. -/
def merged (mode : DiffMode) (current requested : Record e) : Record e :=
  (contributing mode current requested).foldl (·.copyFrom requested ·) current

theorem content_copyAll_of_not_mem {positions : List e.Position} {current requested : Record e}
    {i : e.Position} (h : i ∉ positions) :
    (positions.foldl (·.copyFrom requested ·) current).content i = current.content i := by
  induction positions generalizing current with
  | nil => rfl
  | cons j positions ih =>
    obtain ⟨hj, hi⟩ := not_or.1 (mt List.mem_cons.2 h)
    rw [List.foldl_cons, ih hi, copyFrom, content_set_of_ne hj]

theorem content_copyAll_of_mem {positions : List e.Position} {current requested : Record e}
    {i : e.Position} (h : i ∈ positions) :
    (positions.foldl (·.copyFrom requested ·) current).content i = requested.content i := by
  induction positions generalizing current with
  | nil => cases h
  | cons j positions ih =>
    rw [List.foldl_cons]
    by_cases hi : i ∈ positions
    · exact ih hi
    · obtain rfl := (List.mem_cons.1 h).resolve_right hi
      rw [content_copyAll_of_not_mem hi, copyFrom, content_set_self]

/-- Taking over touches the contributing fields and no others. -/
theorem content_merged (mode : DiffMode) (current requested : Record e) (i : e.Position) :
    (merged mode current requested).content i =
      if contributes mode current requested i then requested.content i
      else current.content i := by
  have hmem : i ∈ contributing mode current requested ↔
      contributes mode current requested i = true := by
    simp [contributing, Entity.positions, List.mem_filter, List.mem_finRange]
  split
  · rename_i h
    exact content_copyAll_of_mem (hmem.2 h)
  · rename_i h
    exact content_copyAll_of_not_mem (mt hmem.1 h)

end Record

end RecordLayer
