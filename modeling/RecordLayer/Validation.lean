import RecordLayer.Fault
import RecordLayer.Record
import RecordLayer.Rule.Builtin

/-!
# Validation

Field errors of a record: the rules that its contents break, and the constraints that a backend
reports as broken, brought home to the fields that declare them.  A constraint is matched by
its name if the backend gave one, otherwise by the columns it gave.
-/

namespace RecordLayer

def uniqueMessage : String := "has already been taken"

def foreignMessage : String := "does not exist"

/-- The rules a record breaks, transient fields included. -/
def Record.ruleErrors {e : Entity} (book : Rulebook) (r : Record e) : FieldErrors :=
  .ofList <| e.positions.filterMap fun i => do
    let rules ← (e.field i).rules
    let message ← book.check rules (r.value i)
    some ((e.field i).name, message)

namespace ConstraintRef

/-- The backend gave no name, and the field's column is among the columns it gave. -/
def hasColumnOf (ref : ConstraintRef) (f : Field) : Bool :=
  ref.name.isNone && f.column.any fun column => ref.columns.any (sameName · column)

/-- The field belongs to the unique constraint. -/
def isUniqueOf (ref : ConstraintRef) (f : Field) : Bool :=
  f.unique.isSome &&
    (ref.name.any (f.uniqueConstraints.contains ·) || ref.hasColumnOf f)

/-- The field belongs to the foreign key. -/
def isForeignOf (ref : ConstraintRef) (f : Field) : Bool :=
  f.foreign.isSome && (ref.name.any (f.foreign == some ·) || ref.hasColumnOf f)

end ConstraintRef

/-- The message for a field that a fault bears on. -/
def Fault.messageFor? (fault : Fault) (f : Field) : Option String :=
  match fault with
  | .unique ref => if ref.isUniqueOf f then some uniqueMessage else none
  | .foreign ref => if ref.isForeignOf f then some foreignMessage else none
  | .relationNotFound | .other => none

/-- The field errors of a fault on an entity; none if the fault is not the entity's. -/
def Entity.faultErrors (e : Entity) (fault : Fault) : FieldErrors :=
  .ofList <| e.fields.filterMap fun f =>
    (fault.messageFor? f).map fun message => (f.name, message)

end RecordLayer
