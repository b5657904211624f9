import RecordLayer.Store.Schema

/-!
# Store — Command

The statements that the store understands, as data.
-/

namespace RecordLayer.Store

/-- One of the things that a query asks for. -/
inductive Selected where
  /-- all columns of the table -/
  | all (table : Option String)
  /-- a value, the name it is given, and the text it is written in -/
  | value (e : Expr) (label : Option String) (text : String)
deriving DecidableEq

/-- What rows are put in order by. -/
structure Criterion where
  value : Expr
  descending : Bool
deriving DecidableEq

/-- A table that is read, and the name that it goes by. -/
structure Source where
  table : String
  label : Option String
deriving DecidableEq

inductive Command where
  | createTable (ifAbsent : Bool) (table : Table)
  | createIndex (ifAbsent : Bool) (table : String) (index : Index)
  | dropTable (ifPresent : Bool) (name : String)
  | dropIndex (ifPresent : Bool) (name : String)
  | insert (table : String) (columns : Option (List String)) (rows : List (List Expr))
      (returning : List Selected)
  | update (table : String) (changes : List (String × Expr)) (condition : Option Expr)
      (returning : List Selected)
  | delete (table : String) (condition : Option Expr) (returning : List Selected)
  | select (wanted : List Selected) (source : Option Source) (condition : Option Expr)
      (ordering : List Criterion)
  | foreignKeys (on : Bool)
deriving DecidableEq

end RecordLayer.Store
