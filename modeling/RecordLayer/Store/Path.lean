import RecordLayer.Store.Evaluation

/-!
# Store — Path

The order in which the rows of a table are read.  A condition that holds the first columns of an
index to single values is answered from that index, an order that an index has is taken from
it, and an index that holds all that is asked for and is smaller than the table is read in its
place.  Otherwise the rows come by number.
-/

namespace RecordLayer.Store

/-! ### Conditions on columns -/

namespace Expr

/-- The expression is worth the same for every row. -/
def isConstant : Expr → Bool
  | literal _ | bound _ => true
  | negated e => e.isConstant
  | _ => false

/-- The column that a comparison with one value is about, and its relation seen from there. -/
def against? : Expr → Option (String × Relation)
  | compared r (column _ name _) b => if b.isConstant then some (name, r) else none
  | compared r a (column _ name _) => if a.isConstant then some (name, r) else none
  | _ => none

/-- The column that a condition holds to one value. -/
def fixed? (e : Expr) : Option String :=
  match e.against? with
  | some (name, .equal) => some name
  | some (name, .is)    => some name
  | _                   => none

/-- The column that a condition holds to values from a bound on. -/
def bounded? (e : Expr) : Option String :=
  match e.against? with
  | some (name, .less)           => some name
  | some (name, .lessOrEqual)    => some name
  | some (name, .greater)        => some name
  | some (name, .greaterOrEqual) => some name
  | _                            => none

/-- The column that a condition says is not null. -/
def present? : Expr → Option String
  | compared .isNot (column _ name _) (literal .null) => some name
  | _ => none

end Expr

/-! ### Sizes -/

/-- A size as ten times its logarithm to the base of two, in steps of an eighth of a
doubling. -/
def grade (size : Nat) : Nat :=
  10 * size.log2 + [0, 2, 3, 5, 6, 7, 8, 9].getD (8 * size / twoTo size.log2 % 8) 0

namespace Table

/-- The room that some columns take in a row. -/
def roomFor (t : Table) (columns : List String) : Nat :=
  columns.foldl (fun sum column => sum + ((t.column? column).map (·.room)).getD 1) 0

/-- The grade of a whole row. -/
def rowGrade (t : Table) : Nat :=
  grade (4 * (t.roomFor t.columnNames + if t.key.isNone then 1 else 0))

/-- The grade of a row of an index, which has the number of the row too. -/
def indexGrade (t : Table) (i : Index) : Nat :=
  grade (4 * (t.roomFor i.columns + 1))

/-- An index holds all of some columns. -/
def covers (t : Table) (columns : List String) (i : Index) : Bool :=
  columns.all fun column => t.isKey column || i.columns.any (sameName column)

/-- What reading a whole index costs, where a table costs fifteen. -/
def scanCost (t : Table) (i : Index) : Nat :=
  15 * t.indexGrade i / t.rowGrade

/-- The cost of reading some columns by an index: one that does not hold them all comes behind
those that do. -/
def readCost (t : Table) (columns : List String) (i : Index) : Nat :=
  t.scanCost i + if t.covers columns i then 0 else 100

/-- The first of the best indexes by a measure, of which less is better. -/
def best? (cost : Index → Nat) (indexes : List Index) : Option Index :=
  indexes.foldl (fun best i =>
    match best with
    | none => some i
    | some b => if cost i < cost b then some i else some b) none

/-- The index that is read in place of the table for some columns. -/
def covering? (t : Table) (columns : List String) : Option Index :=
  best? t.scanCost
    (t.indexes.filter fun i => t.indexGrade i < t.rowGrade && t.covers columns i)

/-! ### Rows in order -/

/-- The first row does not come behind the second by some criteria. -/
def inOrder (t : Table) (values : List Datum) (a b : Entry) : List Criterion → Bool
  | [] => true
  | c :: rest =>
    let x := t.valueOf values a c.value
    let y := t.valueOf values b c.value
    let (x, y) := if c.descending then (y, x) else (x, y)
    x.less y || (!y.less x && t.inOrder values a b rest)

/-- The rows in the order of some criteria; rows that are alike in all of them stay as they
are. -/
def inOrderOf (t : Table) (values : List Datum) (rows : List Entry) (ordering : List Criterion) :
    List Entry :=
  rows.mergeSort fun a b => t.inOrder values a b ordering

/-- The rows in the order of an index. -/
def byIndex (t : Table) (rows : List Entry) (i : Index) : List Entry :=
  t.inOrderOf [] rows (i.parts.map fun p => ⟨.column none p.column false, p.descending⟩)

/-! ### The path to the rows -/

/-- How many of an index's first columns are among those held to one value. -/
def fixedLength (fixed : List String) (i : Index) : Nat :=
  (i.columns.takeWhile fun column => fixed.any (sameName column)).length

/-- Where rows are read from: the table, or one of its indexes. -/
inductive Path where
  | byNumber
  | byIndex (i : Index)

/-- What a condition is answered from, if it is about a key or the first column of an index. -/
def selective? (t : Table) (columns : List String) (condition : Option Expr) : Option Path :=
  let parts := (condition.map Expr.conjuncts).getD []
  let fixed := parts.filterMap Expr.fixed?
  let bounded := parts.filterMap Expr.bounded?
  let present := (parts.filterMap Expr.present?).filter fun name =>
    !t.isKey name && (t.column? name).any (!·.notNull)
  let unfit (i : Index) : Nat :=
    2 * (i.columns.length - fixedLength fixed i) + if t.covers columns i then 0 else 1
  if fixed.any t.isKey then some .byNumber
  else match best? unfit (t.indexes.filter fun i => 0 < fixedLength fixed i) with
    | some i => some (.byIndex i)
    | none =>
      if bounded.any t.isKey then some .byNumber
      else
        let startingWith (names : List String) : List Index :=
          t.indexes.filter fun i => i.columns.head?.any fun column => names.any (sameName column)
        let full (i : Index) : Bool := t.covers columns i && t.scanCost i ≤ 15
        ((best? (t.readCost columns) (startingWith bounded)) <|>
          best? t.scanCost ((startingWith present).filter full)).map .byIndex

/-- The index that gives an order by one column. -/
def ordering? (t : Table) (columns : List String) (column : String) : Option Index :=
  best? (t.readCost columns) (t.indexes.filter fun i => i.columns.head?.any (sameName column))

/-- The column that an ordering is by, if it is by one column. -/
def orderColumn? : List Criterion → Option (String × Bool)
  | [⟨.column _ name _, descending⟩] => some (name, descending)
  | _ => none

/-- The rows of an index, which are in its order, turned if the column that they are to be in
order of has the other direction there. -/
def turnedTo (descending : Bool) (part : IndexPart) (rows : List Entry) : List Entry :=
  if part.descending = descending then rows else rows.reverse

/-- The rows that a query answers, in the order in which it does. -/
def read (t : Table) (values : List Datum) (columns : List String) (condition : Option Expr)
    (ordering : List Criterion) : List Entry :=
  let rows := t.matching values condition
  let fixed := ((condition.map Expr.conjuncts).getD []).filterMap Expr.fixed?
  let isFixed (column : String) : Bool := fixed.any (sameName column)
  let sorted (rows : List Entry) : List Entry := t.inOrderOf values rows ordering
  match t.selective? columns condition, orderColumn? ordering with
  | some .byNumber, _ => sorted rows
  | some (.byIndex i), none => sorted (t.byIndex rows i)
  | some (.byIndex i), some (column, descending) =>
    let rows := t.byIndex rows i
    if isFixed column then rows
    else match i.parts.find? fun part => !isFixed part.column with
      | some part =>
        if sameName part.column column then turnedTo descending part rows else sorted rows
      | none => sorted rows
  | none, ordered =>
    let inherent := ((t.covering? columns).map (t.byIndex rows)).getD rows
    match ordered with
    | none => sorted inherent
    | some (column, descending) =>
      match t.ordering? columns column with
      | some i =>
        match i.parts.head? with
        | some part => turnedTo descending part (t.byIndex rows i)
        | none => sorted inherent
      | none => sorted inherent

end Table

end RecordLayer.Store
