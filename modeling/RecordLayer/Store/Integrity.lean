import RecordLayer.Store.Evaluation

/-!
# Store — Integrity

What the tables demand of their rows: values where null is not allowed, no two rows alike in
unique columns, and a parent for every foreign key; and what a deleted parent takes with it.
-/

namespace RecordLayer.Store

def notNullFailed (table column : String) : Failure :=
  report .notNull "1299" ("NOT NULL constraint failed: " ++ table ++ "." ++ column)

def uniqueFailed (table : String) (columns : List String) : Failure :=
  report .unique "2067" ("UNIQUE constraint failed: " ++
    joinWith ", " (columns.map fun column => table ++ "." ++ column))

def foreignFailed : Failure :=
  report .foreign "787" "FOREIGN KEY constraint failed"

namespace Table

/-- No null where the table does not allow it. -/
def checkNulls (t : Table) (cells : List Datum) : Except Failure Unit :=
  match (t.columns.zip cells).find? fun (column, d) => column.notNull && d == .null with
  | some (column, _) => .error (notNullFailed t.name column.name)
  | none => .ok ()

/-- No demand on the rows is false. -/
def checkDemands (t : Table) (row : Entry) : Except Failure Unit :=
  if t.checks.any fun e => (t.valueOf [] row e).truth? = some false then
    .error (report .check "275" ("CHECK constraint failed: " ++ t.name))
  else .ok ()

/-- Two rows agree in all of some columns; null agrees with nothing. -/
def agree (t : Table) (columns : List String) (a b : Entry) : Bool :=
  columns.all fun column => t.cell a column != .null && (t.cell a column).same (t.cell b column)

/-- No other row has the row's number or agrees with it in unique columns. -/
def checkUnique (t : Table) (others : List Entry) (row : Entry) : Except Failure Unit :=
  if others.any (·.number == row.number) then
    .error (uniqueFailed t.name [t.key.getD "rowid"])
  else
    match t.indexes.find? fun i => i.unique && others.any (t.agree i.columns row) with
    | some i => .error (uniqueFailed t.name i.columns)
    | none => .ok ()

/-- The table with a row in its place by number. -/
def withRow (t : Table) (row : Entry) : Table :=
  { t with
    rows := t.rows.takeWhile (·.number < row.number) ++ row ::
      t.rows.dropWhile (·.number < row.number) }

/-- The table with a row that is new in it. -/
def withNewRow (t : Table) (row : Entry) : Table :=
  let t := t.withRow row
  if t.remembers ∧ t.highest < row.number then { t with highest := row.number } else t

def withoutRow (t : Table) (row : Entry) : Table :=
  { t with rows := t.rows.filter (·.number != row.number) }

end Table

/-! ### Foreign keys -/

/-- A foreign key refers to columns whose values may occur twice. -/
def keyMismatch (child parent : String) : Failure :=
  misfit ("foreign key mismatch - \"" ++ child ++ "\" referencing \"" ++ parent ++ "\"")

/-- The column of its parent that a foreign key refers to, if it is a key or unique by itself. -/
def ForeignKey.column? (key : ForeignKey) (parent : Table) : Option String :=
  match key.parentColumn with
  | none =>
    match parent.key with
    | some column => some column
    | none => parent.indexes.findSome? fun i =>
      match i.columns with
      | [column] => if i.primary then some column else none
      | _ => none
  | some column =>
    if parent.isKey column || parent.indexes.any fun i =>
        i.unique && i.columns.length == 1 && i.columns.all (sameName column) then
      some column
    else none

/-- The tables that foreign keys of a table refer to are there, and what they refer to is
unique. -/
def checkParents (s : Store) (t : Table) (keys : List ForeignKey) : Except Failure Unit := do
  if s.foreignKeys then
    for key in keys.reverse do
      match s.table? key.parent with
      | none => throw (noSuchTable ("main." ++ key.parent))
      | some parent =>
        if (key.column? parent).isNone then throw (keyMismatch t.name parent.name)

/-- The foreign keys that refer to a table, each with the table that has it. -/
def referring (s : Store) (name : String) : List (Table × ForeignKey) :=
  s.tables.flatMap fun child =>
    (child.foreigns.filter (sameName ·.parent name)).map fun key => (child, key)

/-- What some foreign keys refer to in a table is unique. -/
def checkReferring (s : Store) (t : Table) (p : ForeignKey → Bool) : Except Failure Unit :=
  match (s.referring t.name).find? fun (_, key) => p key && (key.column? t).isNone with
  | some (child, _) =>
    if s.foreignKeys then .error (keyMismatch child.name t.name) else .ok ()
  | none => .ok ()

/-- The foreign keys of a table that lead to the table itself, and those that satisfy `p`. -/
def Table.keysToCheck (t : Table) (p : ForeignKey → Bool) : List ForeignKey :=
  t.foreigns.filter fun key => p key || sameName key.parent t.name

/-- The foreign keys that do something when rows of a table are deleted, each with the table
that has it. -/
def acting (s : Store) (t : Table) : List (Table × ForeignKey) :=
  (s.referring t.name).filter fun (_, key) => (key.column? t).isSome

/-- Some foreign keys of a table, and all that refer to it, can be followed; for a deletion those
that then do something come first. -/
def checkKeys (s : Store) (t : Table) (keys : List ForeignKey) (deletion : Bool) :
    Except Failure Unit := do
  if deletion then s.checkReferring t (·.onDelete != .refuse)
  s.checkParents t keys
  s.checkReferring t fun _ => true

/-- What the foreign keys do when rows of a table are deleted can be done, and so can what that
leads to in turn, to a depth of at most `depth` tables; answers the keys seen so far. -/
def followActions (s : Store) : Nat → List (String × ForeignKey) → Table →
    Except Failure (List (String × ForeignKey))
  | 0, seen, _ => .ok seen
  | depth + 1, seen, t =>
    (s.acting t).reverse.foldlM (fun seen (child, key) => do
      if seen.contains (child.name, key) then return seen
      let seen := (child.name, key) :: seen
      match key.onDelete with
      | .cascade =>
        s.checkKeys child child.foreigns true
        followActions s depth seen child
      | .setNull =>
        s.checkKeys child (child.keysToCheck fun k => sameName k.column key.column) false
        return seen
      | .refuse | .forbid => return seen) seen

/-- All that is done when rows of a table are deleted can be done. -/
def checkActions (s : Store) (t : Table) : Except Failure Unit := do
  if s.foreignKeys then
    let keys := s.tables.flatMap (·.foreigns)
    let _ ← s.followActions (keys.length + 1) [] t

/-- The parent of a foreign key has a row with the value. -/
def hasParent (s : Store) (key : ForeignKey) (d : Datum) : Bool :=
  match s.table? key.parent with
  | none => false
  | some parent =>
    (key.column? parent).any fun column =>
      parent.rows.any fun row =>
        (parent.cell row column).same (.stored (parent.affinity column) d)

/-- A row's foreign keys lead to rows. -/
def checkForeign (s : Store) (t : Table) (keys : List ForeignKey) (row : Entry) :
    Except Failure Unit :=
  if s.foreignKeys && keys.any fun key =>
      t.cell row key.column != .null && !s.hasParent key (t.cell row key.column) then
    .error foreignFailed
  else .ok ()

/-- A row's foreign key holds the value of a row of the parent, the two held against each
other by the affinity of the one's column, if given, and the other's. -/
def holdsKey (child : Table) (key : ForeignKey) (row : Entry) (affinity : Option Affinity)
    (d : Datum) : Bool :=
  let (a, b) := Datum.turned (Datum.shared affinity (some (child.affinity key.column))) d
    (child.cell row key.column)
  a != .null && b != .null && a.same b

/-- A row refers through a foreign key to a row of the parent. -/
def refersTo (child : Table) (key : ForeignKey) (row : Entry) (parent : Table) (entry : Entry) :
    Bool :=
  (key.column? parent).any fun column =>
    holdsKey child key row (some (parent.affinity column)) (parent.cell entry column)

/-- A row is one that a foreign key acts on when a row of the parent is deleted.  Here a value
of the parent counts as it is, unless it is the row's number. -/
def isActedOn (child : Table) (key : ForeignKey) (row : Entry) (parent : Table) (entry : Entry) :
    Bool :=
  (key.column? parent).any fun column =>
    holdsKey child key row (if parent.isKey column then some .numeric else none)
      (parent.cell entry column)

/-! ### Deleting rows -/

/-- The rows of a table that refer through a key to one of the rows gone. -/
def orphans (gone : List (Table × Entry)) (child : Table) (key : ForeignKey) : List Entry :=
  child.rows.filter fun row => gone.any fun (parent, entry) =>
    sameName key.parent parent.name && refersTo child key row parent entry

/-- Every key of every table with the rows that it leaves behind. -/
def allOrphans (s : Store) (gone : List (Table × Entry)) :
    List (Table × ForeignKey × List Entry) :=
  s.tables.flatMap fun child =>
    child.foreigns.map fun key => (child, key, orphans gone child key)

/-- The store with null in a column of some rows. -/
def clear (s : Store) (table column : String) (rows : List Entry) : Except Failure Store :=
  match s.table? table with
  | none => .ok s
  | some t =>
    match t.place? column with
    | none => .ok s
    | some place => do
      let cleared := t.rows.map fun row =>
        if rows.any (·.number == row.number) then
          { row with cells := row.cells.set place .null }
        else row
      for row in cleared do
        if rows.any (·.number == row.number) then
          t.checkNulls row.cells
          t.checkDemands row
      return s.put { t with rows := cleared }

/-- The store without some rows of a table. -/
def without (s : Store) (table : String) (rows : List Entry) : Store :=
  match s.table? table with
  | none => s
  | some t => s.put (rows.foldl Table.withoutRow t)

def hasRow (s : Store) (table : String) (row : Entry) : Bool :=
  (s.table? table).any fun t => t.rows.any (·.number == row.number)

/-- Deletes a row of a table that is still there, and then does what each foreign key that
refers to it asks for, the newest first, to a depth of at most `depth` rows. -/
def deleteRow : Nat → Table → Store → Entry → Except Failure Store
  | 0, _, s, _ => .ok s
  | depth + 1, t, s, row =>
    if !s.hasRow t.name row then .ok s
    else (s.acting t).reverse.foldlM (fun s (child, key) =>
      match s.table? child.name with
      | none => .ok s
      | some child =>
        let rows := child.rows.filter (isActedOn child key · t row)
        match key.onDelete with
        | .refuse  => .ok s
        | .forbid  => if rows.isEmpty then .ok s else .error foreignFailed
        | .cascade => rows.foldlM (deleteRow depth child) s
        | .setNull => s.clear child.name key.column rows) (s.without t.name [row])

/-- The number of rows in all tables. -/
def rowCount (s : Store) : Nat :=
  s.tables.foldl (fun sum t => sum + t.rows.length) 0

/-- The rows that are no longer there after a change. -/
def goneSince (s before : Store) : List (Table × Entry) :=
  before.tables.flatMap fun t =>
    (t.rows.filter (!s.hasRow t.name ·)).map fun row => (t, row)

/-- Every row whose parent is gone is gone too, or no longer refers to it. -/
def checkOrphans (s before : Store) : Except Failure Unit :=
  if (s.allOrphans (s.goneSince before)).any fun (_, _, rows) => !rows.isEmpty then
    .error foreignFailed
  else .ok ()

/-- Deletes rows of a table one after another, each with all that it takes with it, and counts
those that were still there when their turn came. -/
def deleteRows (s : Store) (t : Table) (rows : List Entry) : Except Failure (Store × Nat) := do
  if !s.foreignKeys then return (s.without t.name rows, rows.length)
  let (left, count) ← rows.foldlM (fun (s, count) row => do
    let next ← deleteRow (s.rowCount + 1) t s row
    return (next, if s.hasRow t.name row then count + 1 else count)) (s, 0)
  left.checkOrphans s
  return (left, count)

end RecordLayer.Store
