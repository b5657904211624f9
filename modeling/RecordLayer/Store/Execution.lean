import RecordLayer.Store.Integrity
import RecordLayer.Store.Path
import RecordLayer.Text.Mark

/-!
# Store — Execution

What each statement does to the store and what it answers.  A statement that fails changes
nothing.
-/

namespace RecordLayer.Store

/-- What a statement leaves: the store, the rows it answers, and how many rows it changed, if
it is one that changes rows. -/
structure Effect where
  store : Store
  rows : List Row
  changed : Option Nat

/-! ### Queries -/

/-- What is asked for, each thing under its name. -/
abbrev Selection := List (String × Expr)

namespace Scope

/-- The name that a value goes by if it is given none: that of its column, or its text. -/
def ownLabel (s : Scope) (text : String) : Expr → String
  | .column _ name _ => name
  | .rowNumber       => s.table.key.getD "rowid"
  | _                => text

/-- One of the things asked for. -/
def selection (s : Scope) : Selected → Except Failure Selection
  | .all table =>
    if let some name := table.filter (!sameName s.name ·) then .error (noSuchTable name)
    else if s.table.columns.isEmpty then .error (misfit "no tables specified")
    else .ok (s.table.columnNames.map fun name => (name, .column none name false))
  | .value e label text => do
    let e ← s.resolve e
    return [(label.getD (s.ownLabel text e), e)]

/-- The scope with the names that a query gives. -/
def labelled (s : Scope) (wanted : List Selected) : Scope :=
  { s with labels := wanted.filterMap fun
      | .value e (some label) _ => (s.resolve e).toOption.map fun e => (label, e)
      | _ => none }

/-- What rows are put in order by: a name given in the query comes before a column, and a whole
number is the place of one of the things asked for. -/
def criterion (s : Scope) (selection : Selection) (c : Criterion) : Except Failure Criterion := do
  match c.value with
  | .literal (.int n) =>
    match if 1 ≤ n then selection[n.toInt.toNat - 1]? else none with
    | some (_, e) => return { c with value := e }
    | none => throw (misfit "ORDER BY term out of range")
  | .column none name _ =>
    match s.labels.find? fun (label, _) => sameName label name with
    | some (_, e) => return { c with value := e }
    | none => return { c with value := ← s.resolve c.value }
  | e => return { c with value := ← s.resolve e }

end Scope

/-- The greatest or least value that an expression asks for. -/
def Expr.extreme? : Expr → Option Expr
  | greatest e => some (greatest e)
  | least e    => some (least e)
  | firstOf a b | combined _ a b => (extreme? a) <|> (extreme? b)
  | negated e  => extreme? e
  | _          => none

/-- The row that has the value. -/
def Expr.isExtremeAt (t : Table) (values : List Datum) (rows : List Entry) (row : Entry) :
    Expr → Bool
  | greatest e => t.valueOf values row e == (greatest e).eval t values rows none
  | least e    => t.valueOf values row e == (least e).eval t values rows none
  | _          => false

namespace Table

/-- The row that stands for all in a query for functions of all rows: the one with the greatest
or least value if one is asked for, otherwise the first. -/
def representative? (t : Table) (values : List Datum) (rows : List Entry) (wanted : Selection) :
    Option Entry :=
  match wanted.reverse.findSome? fun (_, e) => e.extreme? with
  | some e => (rows.find? (e.isExtremeAt t values rows)) <|> rows.head?
  | none => rows.head?

/-- The answer for one row. -/
def project (t : Table) (values : List Datum) (rows : List Entry) (row : Option Entry)
    (wanted : Selection) : Row :=
  wanted.map fun (label, e) => (label, (e.eval t values rows row).toCell)

/-- The rows of a query's answer. -/
def answer (t : Table) (values : List Datum) (rows : List Entry) (wanted : Selection) :
    List Row :=
  if wanted.any fun (_, e) => e.isAggregate then
    [t.project values rows (t.representative? values rows wanted) wanted]
  else rows.map fun row => t.project values [row] (some row) wanted

end Table

/-- The name is that of the list of tables. -/
def isMaster (name : String) : Bool :=
  sameName name "sqlite_master" || sameName name "sqlite_schema"

/-- The list of tables as a table. -/
def master (s : Store) : Table :=
  let columns := ["type", "name", "tbl_name"].map fun name =>
    (⟨name, .text, 5, false, .literal .null⟩ : Column)
  { Table.ofColumns "sqlite_master" columns with
    rows := s.tables.map fun t => ⟨0, [.text "table", .text t.name, .text t.name]⟩ }

/-- A table that can be read. -/
def readable (s : Store) (name : String) : Except Failure Table :=
  if isMaster name then .ok s.master
  else match s.table? name with
    | some t => .ok t
    | none => .error (noSuchTable name)

/-- A table that can be changed. -/
def writable (s : Store) (name : String) : Except Failure Table :=
  if isMaster name then .error (misfit ("table " ++ name ++ " may not be modified"))
  else match s.table? name with
    | some t => .ok t
    | none => .error (noSuchTable name)

/-- A condition with its names resolved. -/
def Scope.condition (s : Scope) (condition : Option Expr) : Except Failure (Option Expr) :=
  condition.mapM s.resolveSingle

def select (s : Store) (values : List Datum) (wanted : List Selected) (source : Option Source)
    (condition : Option Expr) (ordering : List Criterion) : Except Failure Effect := do
  let scope ← match source with
    | some source => do
      let t ← s.readable source.table
      pure (⟨t, source.label.getD t.name, []⟩ : Scope)
    | none => pure (.ofTable { Table.ofColumns "" [] with rows := [⟨0, []⟩] })
  let t := scope.table
  let selection ← wanted.mapM scope.selection
  let selection := selection.flatten
  let scope := scope.labelled wanted
  let condition ← scope.condition condition
  let ordering ← ordering.mapM (scope.criterion selection)
  let columns := selection.flatMap (·.2.columns) ++ condition.toList.flatMap Expr.columns ++
    ordering.flatMap (·.value.columns)
  return ⟨s, t.answer values (t.read values columns condition ordering) selection, none⟩

/-! ### Changing rows -/

/-- What a change answers: the values of the rows that it changed. -/
def returned (t : Table) (values : List Datum) (rows : List Entry) (returning : Selection) :
    List Row :=
  if returning.isEmpty then [] else rows.map fun row => t.project values [row] (some row) returning

/-- What a change is to answer: values of single rows. -/
def Scope.returning (s : Scope) (returning : List Selected) : Except Failure Selection := do
  let selection ← returning.mapM s.selection
  if selection.flatten.any fun (_, e) => e.isAggregate then throw (misfit "misuse of aggregate")
  if returning.any fun | .all table => table.isSome | _ => false then
    throw (misfit "RETURNING may not use TABLE.* wildcards")
  return selection.flatten

/-- The name is that of a column or of the row's number. -/
def Scope.knows (s : Scope) (name : String) : Except Failure Unit := do
  let _ ← s.resolveName none name false

/-- The value that a new row has in a column: the first one given, or the default. -/
def newCell (t : Table) (given : List (String × Datum)) (column : Column) : Datum :=
  match given.find? fun (name, _) => sameName name column.name with
  | some (_, d) => .stored column.affinity d
  | none => .stored column.affinity (t.valueOf [] ⟨0, []⟩ column.default)

/-- The highest number of a row, or one given earlier if the table remembers it. -/
def highestNumber (t : Table) : Int64 :=
  let last := (t.rows.getLast?.map (·.number)).getD 0
  if t.remembers ∧ last < t.highest then t.highest else last

/-- The name is that of the integer key or of the row's number. -/
def isNumber (t : Table) (name : String) : Bool :=
  t.isKey name || ((t.place? name).isNone && (Scope.ofTable t).isRowNumber name)

/-- The number that a row is given, the last one counting. -/
def givenNumber? (t : Table) (given : List (String × Datum)) : Option Datum :=
  (given.reverse.find? fun (name, _) => isNumber t name).map (·.2)

/-- A value as the number of a row. -/
def rowNumber (d : Datum) : Except Failure Int64 :=
  match Datum.stored .numeric d with
  | .int n => .ok n
  | _ => .error (report .other "20" "datatype mismatch")

/-- The number of a new row: the one given, otherwise one above the highest. -/
def newNumber (t : Table) (given : List (String × Datum)) : Except Failure Int64 :=
  match (givenNumber? t given).getD .null with
  | .null =>
    if highestNumber t = Int64.maxValue then
      .error (report .other "13" "database or disk is full")
    else .ok (highestNumber t + 1)
  | d => rowNumber d

/-- The row with its number in the key's place. -/
def keyed (t : Table) (number : Int64) (cells : List Datum) : Entry where
  number := number
  cells := match t.key.bind t.place? with
    | some place => cells.set place (.int number)
    | none => cells

/-- The table with a new row, and the row. -/
def insertRow (t : Table) (given : List (String × Datum)) : Except Failure (Table × Entry) := do
  let cells := t.columns.map (newCell t given)
  let row := keyed t (← newNumber t given) cells
  t.checkNulls row.cells
  t.checkDemands row
  t.checkUnique t.rows row
  return (t.withNewRow row, row)

def insert (s : Store) (values : List Datum) (table : String) (columns : Option (List String))
    (rows : List (List Expr)) (returning : List Selected) : Except Failure Effect := do
  let t ← s.writable table
  let scope := Scope.ofTable t
  let columns := columns.getD t.columnNames
  columns.forM scope.knows
  if rows.any (·.length ≠ columns.length) then
    throw (misfit "the values do not match the columns in number")
  let rows ← rows.mapM fun row => row.mapM Scope.closed.resolveSingle
  let returning ← scope.returning returning
  s.checkParents t t.foreigns
  if !returning.isEmpty || 1 < rows.length then s.checkReferring t fun _ => true
  let (t, entries) ← rows.foldlM (fun (t, entries) row => do
    let given := columns.zip (row.map (t.valueOf values ⟨0, []⟩))
    let (t, entry) ← insertRow t given
    return (t, entries ++ [entry])) (t, ([] : List Entry))
  let s := s.put t
  entries.forM (s.checkForeign t t.foreigns)
  return ⟨s, returned t values entries returning, some entries.length⟩

/-- The row with some columns changed. -/
def changedRow (t : Table) (values : List Datum) (changes : List (String × Expr)) (row : Entry) :
    Except Failure Entry := do
  let given := changes.map fun (column, e) => (column, t.valueOf values row e)
  let cells := given.foldl (fun cells (column, d) =>
    match t.place? column with
    | some place => cells.set place (.stored (t.affinity column) d)
    | none => cells) row.cells
  match givenNumber? t given with
  | some d => return keyed t (← rowNumber d) cells
  | none => return ⟨row.number, cells⟩

/-- The changes name a column; the integer key is the row's number too. -/
def touches (t : Table) (changes : List (String × Expr)) (column : String) : Bool :=
  changes.any fun (name, _) =>
    sameName name column || (t.isKey column && isNumber t name)

def update (s : Store) (values : List Datum) (table : String) (changes : List (String × Expr))
    (condition : Option Expr) (returning : List Selected) : Except Failure Effect := do
  let t ← s.writable table
  let scope := Scope.ofTable t
  let changes ← changes.mapM fun (column, e) => do
    scope.knows column
    return (column, ← scope.resolveSingle e)
  let condition ← scope.condition condition
  let returning ← scope.returning returning
  let parentKeys := (s.referring t.name).filter fun (_, key) =>
    match key.parentColumn with
    | some column => touches t changes column
    | none => (key.column? t).any (touches t changes)
  let isTouched (key : ForeignKey) : Bool := touches t changes key.column
  let keys := t.foreigns.filter isTouched
  if t.foreigns.any isTouched || !parentKeys.isEmpty then
    s.checkKeys t (t.keysToCheck isTouched) false
  let rows := t.read values t.columnNames condition []
  let (t', changed) ← rows.foldlM (fun ((t : Table), changed) row => do
    let entry ← changedRow t values changes row
    t.checkNulls entry.cells
    t.checkDemands entry
    let others := t.withoutRow row
    t.checkUnique others.rows entry
    return (others.withRow entry, changed ++ [entry])) (t, ([] : List Entry))
  let s := s.put t'
  changed.forM (s.checkForeign t' keys)
  let left := s.allOrphans (rows.map fun row => (t, row))
  if s.foreignKeys && left.any fun (child, key, orphans) =>
      parentKeys.any (·.2 == key) && orphans.any fun row =>
        !s.hasParent key (child.cell row key.column) then
    throw foreignFailed
  return ⟨s, returned t' values changed returning, some rows.length⟩

def delete (s : Store) (values : List Datum) (table : String) (condition : Option Expr)
    (returning : List Selected) : Except Failure Effect := do
  let t ← s.writable table
  let scope := Scope.ofTable t
  let condition ← scope.condition condition
  let returning ← scope.returning returning
  s.checkKeys t t.foreigns true
  s.checkActions t
  let rows := t.read values t.columnNames condition []
  let (s, count) ← s.deleteRows t rows
  return ⟨s, returned t values rows returning, some count⟩

/-! ### Changing tables -/

/-- Two columns of one name. -/
def repeated? : List String → Option String
  | [] => none
  | name :: rest => if rest.any (sameName name) then some name else repeated? rest

/-- An index has the name. -/
def hasIndex (s : Store) (name : String) : Bool :=
  s.tables.any fun t => t.indexes.any fun i => i.name.any (sameName name)

/-- The columns are all the table's. -/
def Table.has (t : Table) (columns : List String) : Except Failure Unit :=
  match columns.find? fun column => (t.place? column).isNone with
  | some column => .error (noSuchColumn column)
  | none => .ok ()

def createTable (s : Store) (ifAbsent : Bool) (t : Table) : Except Failure Effect := do
  if Text.beginsWith "sqlite_".toList (Text.folded t.name.toList) then
    throw (misfit ("object name reserved for internal use: " ++ t.name))
  if (s.table? t.name).isSome then
    if ifAbsent then return ⟨s, [], none⟩
    else throw (misfit ("table " ++ t.name ++ " already exists"))
  if s.hasIndex t.name then throw (misfit ("there is already an index named " ++ t.name))
  if let some name := repeated? t.columnNames then
    throw (misfit ("duplicate column name: " ++ name))
  t.has (t.key.toList ++ t.indexes.flatMap (·.columns) ++ t.foreigns.map (·.column))
  let checks ← t.checks.mapM (Scope.ofTable t).resolveSingle
  return ⟨{ s with tables := s.tables ++ [{ t with checks := checks }] }, [], none⟩

def createIndex (s : Store) (ifAbsent : Bool) (table : String) (i : Index) :
    Except Failure Effect := do
  let name := i.name.getD ""
  match s.table? table with
  | none => throw (noSuchTable ("main." ++ table))
  | some t =>
    if (s.table? name).isSome then throw (misfit ("there is already a table named " ++ name))
    if s.hasIndex name then
      if ifAbsent then return ⟨s, [], none⟩
      else throw (misfit ("index " ++ name ++ " already exists"))
    t.has i.columns
    if i.unique then
      for row in t.rows do
        if (t.withoutRow row).rows.any (t.agree i.columns row) then
          throw (uniqueFailed t.name i.columns)
    return ⟨s.put { t with indexes := i :: t.indexes }, [], none⟩

/-- Some table refers to this one. -/
def isParent (s : Store) (name : String) : Bool :=
  !(s.referring name).isEmpty

def dropTable (s : Store) (ifPresent : Bool) (name : String) : Except Failure Effect := do
  if isMaster name then throw (misfit ("table " ++ name ++ " may not be dropped"))
  match s.table? name with
  | none => if ifPresent then return ⟨s, [], none⟩ else throw (noSuchTable name)
  | some t =>
    if s.foreignKeys && s.isParent name then
      s.checkActions t
      let (s, count) ← s.deleteRows t t.rows
      return ⟨s.remove name, [], some count⟩
    else return ⟨s.remove name, [], none⟩

def dropIndex (s : Store) (ifPresent : Bool) (name : String) : Except Failure Effect := do
  if s.hasIndex name || ifPresent then
    let without (t : Table) : Table :=
      { t with indexes := t.indexes.filter fun i => !i.name.any (sameName name) }
    return ⟨{ s with tables := s.tables.map without }, [], none⟩
  else throw (misfit ("no such index: " ++ name))

/-- Carries out one statement. -/
def execute (s : Store) (values : List Datum) : Command → Except Failure Effect
  | .createTable ifAbsent t => s.createTable ifAbsent t
  | .createIndex ifAbsent table index => s.createIndex ifAbsent table index
  | .dropTable ifPresent name => s.dropTable ifPresent name
  | .dropIndex ifPresent name => s.dropIndex ifPresent name
  | .insert table columns rows returning => s.insert values table columns rows returning
  | .update table changes condition returning =>
    s.update values table changes condition returning
  | .delete table condition returning => s.delete values table condition returning
  | .select wanted source condition ordering => s.select values wanted source condition ordering
  | .foreignKeys on => .ok ⟨{ s with foreignKeys := on }, [], none⟩

end RecordLayer.Store
