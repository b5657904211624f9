import RecordLayer.Store.Command

/-!
# Store — Evaluation

What the names in an expression stand for, and what an expression is worth for a row.  Values
are compared as the columns they come from demand, and nothing with null.  Patterns match with
`_` for one character and `%` for any run, and ASCII letters in either case.
-/

namespace RecordLayer.Store

/-- An error that the store reports. -/
def report (kind : ReportKind) (code message : String) : Failure :=
  .database (.reported ⟨some code, message, kind, none⟩)

/-- A statement that does not fit the tables. -/
def misfit (message : String) : Failure :=
  report .other "1" message

def noSuchTable (name : String) : Failure :=
  misfit ("no such table: " ++ name)

def noSuchColumn (name : String) : Failure :=
  misfit ("no such column: " ++ name)

/-! ### Names -/

/-- What the names in an expression can stand for: the columns of a table under the name that it
goes by, and names given to values. -/
structure Scope where
  table : Table
  name : String
  labels : List (String × Expr)

namespace Scope

def ofTable (t : Table) : Scope := ⟨t, t.name, []⟩

/-- A scope without names. -/
def closed : Scope := .ofTable (.ofColumns "" [])

/-- The name of the row's number. -/
def isRowNumber (s : Scope) (name : String) : Bool :=
  !s.table.columns.isEmpty && ["rowid", "oid", "_rowid_"].any (sameName name)

/-- What a name stands for: a column, the row's number, or a value that is given the name; a
name in double quotes that stands for nothing is a text. -/
def resolveName (s : Scope) (table : Option String) (name : String) (quoted : Bool) :
    Except Failure Expr :=
  if table.any (!sameName s.name ·) then .error (noSuchColumn name)
  else match s.table.column? name with
    | some column => .ok (.column none column.name false)
    | none =>
      if s.isRowNumber name then .ok .rowNumber
      else match s.labels.find? fun (label, _) => table.isNone && sameName label name with
        | some (_, e) => .ok e
        | none => if quoted then .ok (.literal (.text name)) else .error (noSuchColumn name)

/-- The expression with its names replaced by what they stand for. -/
def resolve (s : Scope) : Expr → Except Failure Expr
  | .column table name quoted => s.resolveName table name quoted
  | .literal d      => .ok (.literal d)
  | .bound place    => .ok (.bound place)
  | .rowNumber      => .ok .rowNumber
  | .count          => .ok .count
  | .unknown f      => .error (misfit ("no such function: " ++ f))
  | .negated e      => return .negated (← s.resolve e)
  | .opposite e     => return .opposite (← s.resolve e)
  | .countOf e      => return .countOf (← s.resolve e)
  | .greatest e     => return .greatest (← s.resolve e)
  | .least e        => return .least (← s.resolve e)
  | .combined o a b => return .combined o (← s.resolve a) (← s.resolve b)
  | .compared r a b => return .compared r (← s.resolve a) (← s.resolve b)
  | .both a b       => return .both (← s.resolve a) (← s.resolve b)
  | .either a b     => return .either (← s.resolve a) (← s.resolve b)
  | .firstOf a b    => return .firstOf (← s.resolve a) (← s.resolve b)

/-- The same for an expression about single rows. -/
def resolveSingle (s : Scope) (e : Expr) : Except Failure Expr := do
  let e ← s.resolve e
  if e.isAggregate then throw (misfit "misuse of aggregate")
  return e

end Scope

/-! ### Comparison -/

/-- The ends of a text, from the whole of it to nothing. -/
def suffixes : List Char → List (List Char)
  | [] => [[]]
  | c :: s => (c :: s) :: suffixes s

/-- The text matches the pattern. -/
def like : List Char → List Char → Bool
  | [], s => s.isEmpty
  | '%' :: pattern, s => (suffixes s).any (like pattern)
  | '_' :: pattern, s =>
    match s with
    | [] => false
    | _ :: s => like pattern s
  | p :: pattern, s =>
    match s with
    | [] => false
    | c :: s => p.toLower == c.toLower && like pattern s

/-- The text of a value matches that of a pattern. -/
def Datum.like (d pattern : Datum) : Bool :=
  match d.text?, pattern.text? with
  | some s, some pattern => Store.like pattern.toList s.toList
  | _, _ => false

/-- The relation holds between two values; with null it mostly neither holds nor fails. -/
def Relation.holds? (r : Relation) (a b : Datum) : Option Bool :=
  match r with
  | is    => some (a.same b)
  | isNot => some (!a.same b)
  | _ =>
    if a = .null ∨ b = .null then none
    else some <| match r with
      | equal          => a.same b
      | differs        => !a.same b
      | less           => a.less b
      | greater        => b.less a
      | lessOrEqual    => !b.less a
      | greaterOrEqual => !a.less b
      | like           => a.like b
      | notLike        => !a.like b
      | is | isNot     => false

def Relation.isLike : Relation → Bool
  | like | notLike => true
  | _              => false

/-! ### Values -/

namespace Expr

/-- The affinity of a column; other expressions have none. -/
def affinity? (t : Table) : Expr → Option Affinity
  | column _ name _ => some (t.affinity name)
  | rowNumber       => some .numeric
  | _               => none

/-- The two values as a comparison of the expressions turns them. -/
def turned (t : Table) (r : Relation) (a b : Expr) (x y : Datum) : Datum × Datum :=
  if r.isLike then (x, y) else Datum.turned (Datum.shared (a.affinity? t) (b.affinity? t)) x y

end Expr

/-- Both conditions hold; a false one decides. -/
def bothTrue : Option Bool → Option Bool → Option Bool
  | some false, _ | _, some false => some false
  | some true, some true          => some true
  | _, _                          => none

/-- One of the conditions holds; a true one decides. -/
def eitherTrue : Option Bool → Option Bool → Option Bool
  | some true, _ | _, some true => some true
  | some false, some false      => some false
  | _, _                        => none

def Operation.apply : Operation → Datum → Datum → Datum
  | plus   => .plus
  | minus  => .minus
  | times  => .times
  | joined => .joined

/-- The first of some values that none is above; null if all are null. -/
def extreme (above : Datum → Datum → Bool) (ds : List Datum) : Datum :=
  ds.foldl (fun best d =>
    if d = .null then best else if best = .null || above d best then d else best) .null

/-- What an expression is worth for one of the rows of a table, given the values of the
placeholders; without a row its columns are null. -/
def Expr.eval (t : Table) (values : List Datum) (rows : List Entry) (row : Option Entry) :
    Expr → Datum
  | literal d       => d
  | bound place     => values[place]?.getD .null
  | column _ name _ => (row.map fun row => t.cell row name).getD .null
  | rowNumber       => (row.map fun row => .int row.number).getD .null
  | negated e       => (eval t values rows row e).negated
  | opposite e      => .ofTruth ((eval t values rows row e).truth?.map (!·))
  | combined o a b  => o.apply (eval t values rows row a) (eval t values rows row b)
  | compared r a b  =>
    let (x, y) := turned t r a b (eval t values rows row a) (eval t values rows row b)
    .ofTruth (r.holds? x y)
  | both a b =>
    .ofTruth (bothTrue (eval t values rows row a).truth? (eval t values rows row b).truth?)
  | either a b =>
    .ofTruth (eitherTrue (eval t values rows row a).truth? (eval t values rows row b).truth?)
  | firstOf a b =>
    let x := eval t values rows row a
    if x = .null then eval t values rows row b else x
  | unknown _ => .null
  | count => .int (.ofNat rows.length)
  | countOf e =>
    .int (.ofNat (rows.countP fun row => eval t values rows (some row) e != .null))
  | greatest e =>
    extreme (fun a b => b.less a) (rows.map fun row => eval t values rows (some row) e)
  | least e =>
    extreme Datum.less (rows.map fun row => eval t values rows (some row) e)

namespace Table

/-- The value of a resolved expression for one row. -/
def valueOf (t : Table) (values : List Datum) (row : Entry) (e : Expr) : Datum :=
  e.eval t values [] (some row)

/-- The rows for which a condition holds. -/
def matching (t : Table) (values : List Datum) (condition : Option Expr) : List Entry :=
  match condition with
  | none => t.rows
  | some e => t.rows.filter fun row => (t.valueOf values row e).truth? = some true

end Table

end RecordLayer.Store
