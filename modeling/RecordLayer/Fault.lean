import RecordLayer.Dialect
import RecordLayer.Text.Mark

/-!
# Faults

The kinds of backend error that the record layer reacts to: a table that is not there, a broken
unique constraint, a broken foreign key.  PostgreSQL and MySQL name the constraint; SQLite names
only the columns of a unique one and nothing of a foreign key.
-/

namespace RecordLayer

/-- What is known of a broken constraint. -/
structure ConstraintRef where
  name : Option String
  columns : List String
deriving DecidableEq, Repr

inductive Fault where
  | relationNotFound
  | unique (constraint : ConstraintRef)
  | foreign (constraint : ConstraintRef)
  | other
deriving DecidableEq, Repr

namespace Fault
open Text

/-- The text behind the last point. -/
def lastPart (s : List Char) : List Char :=
  match cutLast? ['.'] s with
  | some (_, rest) => rest
  | none => s

/-- The key of `Duplicate entry 'x' for key 'table.key'`. -/
def duplicateKey? (message : List Char) : Option (List Char) :=
  (cutLast? "for key '".toList message).map fun (_, rest) =>
    lastPart ((beforeMark? ['\''] rest).getD rest)

/-- The text without the backticks around it. -/
def unquoted (s : List Char) : List Char :=
  ((s.dropWhile (· == '\x60')).reverse.dropWhile (· == '\x60')).reverse

/-- The name and columns of ``CONSTRAINT `name` FOREIGN KEY (`column`)``. -/
def foreignKey (message : List Char) : ConstraintRef where
  name := do
    let (_, rest) ← cutFirst? "CONSTRAINT `".toList message
    let (name, _) ← cutFirst? ['\x60'] rest
    some (.ofList name)
  columns :=
    let listed : Option (List Char) := do
      let (_, rest) ← cutFirst? "FOREIGN KEY (".toList message
      let (columns, _) ← cutFirst? [')'] rest
      some columns
    match listed with
    | none => []
    | some columns => (cutAt ',' columns).map fun column => .ofList (unquoted (trimmed column))

/-- The columns of `UNIQUE constraint failed: table.a, table.b`. -/
def uniqueColumns (message : List Char) : List String :=
  match cutFirst? [':'] message with
  | none => []
  | some (_, columns) =>
    (((cutAt ',' columns).map fun column => lastPart (trimmed column)).filter
      (!·.isEmpty)).map .ofList

end Fault

namespace Dialect
open Text

/-- The fault behind a report of a dialect's database. -/
def classifyReport (dialect : Dialect) (report : Report) : Fault :=
  let message := report.message.toList
  match dialect with
  | postgres =>
    match report.code with
    | some "42P01" => .relationNotFound
    | some "23505" => .unique ⟨report.constraint, []⟩
    | some "23503" => .foreign ⟨report.constraint, []⟩
    | _ => .other
  | mysql =>
    if report.code = some "42S02" ∨ hasMark "doesn't exist".toList message then
      .relationNotFound
    else if report.kind = .unique ∨ beginsWith "Duplicate entry".toList message then
      .unique ⟨(Fault.duplicateKey? message).map .ofList, []⟩
    else if report.kind = .foreign ∨
        hasMark "foreign key constraint fails".toList message then
      .foreign (Fault.foreignKey message)
    else .other
  | sqlite =>
    if beginsWith "no such table".toList message then .relationNotFound
    else if report.kind = .unique ∨
        beginsWith "UNIQUE constraint failed".toList message then
      .unique ⟨none, Fault.uniqueColumns message⟩
    else if report.kind = .foreign ∨
        beginsWith "FOREIGN KEY constraint failed".toList message then
      .foreign ⟨none, []⟩
    else .other

/-- The fault behind a backend error. -/
def classify (dialect : Dialect) : BackendError → Fault
  | .reported report => dialect.classifyReport report
  | _ => .other

end Dialect

end RecordLayer
