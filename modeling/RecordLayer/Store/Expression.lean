import RecordLayer.Store.Datum

/-!
# Store — Expression

The expressions of statements: values written out or bound, columns, comparisons and their
combinations, and the functions of all rows.
-/

namespace RecordLayer.Store

inductive Relation where
  | equal
  | differs
  | less
  | lessOrEqual
  | greater
  | greaterOrEqual
  | like
  | notLike
  | is
  | isNot
deriving DecidableEq

inductive Operation where
  | plus
  | minus
  | times
  | joined
deriving DecidableEq

inductive Expr where
  | literal (d : Datum)
  | bound (place : Nat)
  /-- a column, with the table it is said to be of; a name in double quotes that is no column is
  a text -/
  | column (table : Option String) (name : String) (quoted : Bool)
  | rowNumber
  | negated (e : Expr)
  | opposite (e : Expr)
  | combined (o : Operation) (a b : Expr)
  | compared (r : Relation) (a b : Expr)
  | both (a b : Expr)
  | either (a b : Expr)
  /-- the first value unless it is null -/
  | firstOf (a b : Expr)
  | count
  | countOf (e : Expr)
  | greatest (e : Expr)
  | least (e : Expr)
  /-- a function that there is not -/
  | unknown (function : String)
deriving DecidableEq

namespace Expr

/-- The columns that an expression speaks of. -/
def columns : Expr → List String
  | column _ name _ => [name]
  | literal _ | bound _ | rowNumber | count | unknown _ => []
  | negated e | opposite e | countOf e | greatest e | least e => e.columns
  | combined _ a b | compared _ a b | both a b | either a b | firstOf a b =>
    a.columns ++ b.columns

/-- The expression holds a function of all rows. -/
def isAggregate : Expr → Bool
  | count | countOf _ | greatest _ | least _ => true
  | literal _ | bound _ | column _ _ _ | rowNumber | unknown _ => false
  | negated e | opposite e => e.isAggregate
  | combined _ a b | compared _ a b | both a b | either a b | firstOf a b =>
    a.isAggregate || b.isAggregate

/-- The parts of a condition that all have to hold. -/
def conjuncts : Expr → List Expr
  | both a b => a.conjuncts ++ b.conjuncts
  | e        => [e]

end Expr

end RecordLayer.Store
