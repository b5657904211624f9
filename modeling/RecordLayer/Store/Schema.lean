import RecordLayer.Store.Expression
import RecordLayer.Text.Word

/-!
# Store — Schema

The tables of a small SQL store that lives in memory: columns with their types and defaults,
keys, indexes, foreign keys, and the rows.  Names match in either letter case.
-/

namespace RecordLayer.Store

structure Column where
  name : String
  affinity : Affinity
  /-- how much room a value is taken to need, a number needing one -/
  room : Nat
  notNull : Bool
  default : Expr
deriving DecidableEq

/-- What becomes of the rows that refer to a row that is deleted. -/
inductive OnDelete where
  /-- they may not be left when all is deleted -/
  | refuse
  /-- they may not be there at all -/
  | forbid
  | cascade
  | setNull
deriving DecidableEq

/-- A column that holds a key of another table: of a given column, or of its primary key. -/
structure ForeignKey where
  column : String
  parent : String
  parentColumn : Option String
  onDelete : OnDelete
deriving DecidableEq

/-- A column of an index, in ascending or descending order. -/
structure IndexPart where
  column : String
  descending : Bool
deriving DecidableEq

/-- Rows in the order of some columns.  If it is unique, the values of these may occur together
once. -/
structure Index where
  name : Option String
  parts : List IndexPart
  unique : Bool
  /-- it is that of the primary key -/
  primary : Bool
deriving DecidableEq

def Index.columns (i : Index) : List String :=
  i.parts.map (·.column)

/-- A row with its number, which is its integer key if the table has one. -/
structure Entry where
  number : Int64
  cells : List Datum
deriving DecidableEq

structure Table where
  name : String
  columns : List Column
  /-- The integer key. -/
  key : Option String
  /-- The indexes, newest first. -/
  indexes : List Index
  foreigns : List ForeignKey
  /-- What has to be true of every row, or null. -/
  checks : List Expr
  /-- The rows, by number. -/
  rows : List Entry
  /-- A number is never given twice, not even after its row is deleted. -/
  remembers : Bool
  /-- The highest number given so far. -/
  highest : Int64
deriving DecidableEq

namespace Table

/-- A table of some columns, which holds nothing and demands nothing. -/
def ofColumns (name : String) (columns : List Column) : Table :=
  ⟨name, columns, none, [], [], [], [], false, 0⟩

def columnNames (t : Table) : List String :=
  t.columns.map (·.name)

/-- The place of a column. -/
def place? (t : Table) (column : String) : Option Nat :=
  t.columns.findIdx? (sameName ·.name column)

def column? (t : Table) (column : String) : Option Column :=
  t.columns.find? (sameName ·.name column)

/-- A row's value in a column. -/
def cell (t : Table) (row : Entry) (column : String) : Datum :=
  ((t.place? column).bind fun i => row.cells[i]?).getD .null

def isKey (t : Table) (column : String) : Bool :=
  t.key.any (sameName · column)

def affinity (t : Table) (column : String) : Affinity :=
  ((t.column? column).map (·.affinity)).getD .none

end Table

end RecordLayer.Store

namespace RecordLayer

/-- The tables in the order in which they were created, and whether foreign keys count. -/
structure Store where
  tables : List Store.Table
  foreignKeys : Bool
deriving DecidableEq

namespace Store

/-- A store without tables. -/
def empty : Store := ⟨[], true⟩

def table? (s : Store) (name : String) : Option Table :=
  s.tables.find? (sameName ·.name name)

/-- The store with a table's content replaced. -/
def put (s : Store) (t : Table) : Store :=
  { s with tables := s.tables.map fun old => if sameName old.name t.name then t else old }

def remove (s : Store) (name : String) : Store :=
  { s with tables := s.tables.filter (!sameName ·.name name) }

end Store

end RecordLayer
