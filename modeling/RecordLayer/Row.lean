import RecordLayer.Decimal.Binary
import RecordLayer.Failure
import RecordLayer.Record
import RecordLayer.Text.Utf8

/-!
# Rows

Rows as a backend answers them, and how they are read: cell by cell into column values, or
column by column into the record of an entity.  Columns that no field is stored in are passed
over.
-/

namespace RecordLayer

/-- What a backend answers for one column of one row. -/
inductive Cell where
  | null
  | bool (b : Bool)
  | int (n : Int64)
  | double (d : Double)
  /-- a floating-point number of 32 bits -/
  | single
  | text (s : String)
  | blob (bytes : List UInt8)
deriving DecidableEq

/-- The cells of a row under their columns, in order. -/
abbrev Row := List (String × Cell)

/-- The value of a cell, or why it has none. -/
def Cell.read : Cell → Except String Value
  | null        => .ok .null
  | bool b      => .ok (.bool b)
  | int n       => .ok (.int n)
  | double d    =>
    match Decimal.ofDouble? d with
    | some d => .ok (.decimal d)
    | none => .error "Error while converting to Decimal"
  | single      => .error "unsupported column type"
  | text s      => .ok (.text s)
  | blob bytes  => .ok (.text (Text.lossyUtf8 bytes))

/-- The value of one column. -/
def Cell.decode (column : String) (cell : Cell) : Except Failure Value :=
  cell.read.mapError (.decode column)

namespace Row

/-- The values of a row, in order. -/
def decode (row : Row) : Except Failure (List Value) :=
  row.mapM fun (column, cell) => cell.decode column

/-- The value of the first column. -/
def decodeFirst (row : Row) : Except Failure Value :=
  match row with
  | (column, cell) :: _ => cell.decode column
  | [] => .error (.decode "0" "unsupported column type")

/-- Stores one column of a row in the field it belongs to. -/
def scanCell {e : Entity} (r : Record e) (column : String) (cell : Cell) :
    Except Failure (Record e) :=
  match e.byColumn? column with
  | none => .ok r
  | some i => do
    let v ← cell.decode column
    match r.assign? i v with
    | some r => .ok r
    | none =>
      .error (.decode column ("value does not fit a " ++ (e.field i).kind.name ++ " field"))

/-- The record with the columns of a row stored in the fields they belong to. -/
def scanOver {e : Entity} (initial : Record e) (row : Row) : Except Failure (Record e) :=
  row.foldlM (fun r (column, cell) => scanCell r column cell) initial

/-- The record of a row, fields without a column of theirs left empty. -/
def scan (e : Entity) (row : Row) : Except Failure (Record e) :=
  scanOver (Record.empty e) row

end Row

/-- Rows without types. -/
structure Rows where
  columns : List String
  rows : List (List Value)
deriving DecidableEq

namespace Rows

/-- The value of a column in a row. -/
def get? (t : Rows) (row : Nat) (column : String) : Option Value := do
  let place ← t.columns.findIdx? (· == column)
  (← t.rows[row]?)[place]?

/-- The rows of an answer; an answer without rows names no columns. -/
def ofAnswer (answer : List Row) : Except Failure Rows := do
  let columns := match answer with
    | row :: _ => row.map (·.1)
    | [] => []
  return ⟨columns, ← answer.mapM Row.decode⟩

end Rows

end RecordLayer
