import RecordLayer.Text.Blank

/-!
# SQL — Statement

The statements that write records, with a named parameter for every column.
-/

namespace RecordLayer.Sql

/-- ` RETURNING column`, if a column is given. -/
def returningClause (column : Option String) : String :=
  match column.map trim with
  | none => ""
  | some name => if name.isEmpty then "" else " RETURNING " ++ name

/-- `INSERT INTO t (a, b) VALUES (:a, :b)`. -/
def insertStatement (columns : List String) (table : String) (returning : Option String) :
    String :=
  "INSERT INTO " ++ table ++ " (" ++ joinWith ", " columns ++ ") VALUES (" ++
    joinWith ", " (columns.map (":" ++ ·)) ++ ")" ++ returningClause returning

/-- `UPDATE t SET a = :a, b = :b WHERE condition`. -/
def updateStatement (columns : List String) (table condition : String)
    (returning : Option String) : String :=
  let condition := trim condition
  "UPDATE " ++ table ++ " SET " ++ joinWith ", " (columns.map fun c => c ++ " = :" ++ c) ++
    (if condition.isEmpty then "" else " WHERE " ++ condition) ++ returningClause returning

/-- `DELETE FROM t WHERE key = :id`. -/
def deleteStatement (table key : String) : String :=
  "DELETE FROM " ++ table ++ " WHERE " ++ key ++ " = :id"

end RecordLayer.Sql
