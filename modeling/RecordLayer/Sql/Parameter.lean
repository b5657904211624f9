import RecordLayer.Changeset
import RecordLayer.Dialect
import RecordLayer.Sql.Token

/-!
# SQL — Parameter

Statements are written with named parameters, `:name`, and sent with the placeholders of a
dialect.  A colon names a parameter when a word follows it and it is not one of a pair `::`,
which is a cast; inside quotes, comments and dollar-quoted bodies nothing is a parameter.  A
name that occurs twice is bound twice.
-/

namespace RecordLayer.Sql

/-- A piece of a statement: text to be kept, or a parameter. -/
inductive Piece where
  | text (content : List Char)
  | param (name : String)
deriving DecidableEq, Repr

/-- The pieces that tokens make up, from left to right. -/
def piecesOf : List Token → List Piece
  | [] => []
  | .symbol ':' :: .symbol ':' :: ts => .text [':', ':'] :: piecesOf ts
  | .symbol ':' :: .word name :: ts => .param (.ofList name) :: piecesOf ts
  | t :: ts => .text t.text :: piecesOf ts

/-- The pieces of a statement. -/
def pieces (sql : String) : List Piece :=
  piecesOf (tokens sql.toList)

/-- What stands for the `n`th value in the statement that is sent. -/
def slot (dialect : Dialect) (n : Nat) (v : Value) : String :=
  match v with
  | .decimal _ => dialect.placeholder n ++ dialect.decimalCast
  | _ => dialect.placeholder n

/-- Fills the parameters of the pieces, `bound` values being bound already. -/
def fill (params : Params) (dialect : Dialect) (bound : Nat) :
    List Piece → Except Failure (List Char × List Value)
  | [] => .ok ([], [])
  | .text content :: rest => do
    let (sql, values) ← fill params dialect bound rest
    .ok (content ++ sql, values)
  | .param name :: rest =>
    match params.get? name with
    | none => .error (.missingParam name)
    | some v => do
      let (sql, values) ← fill params dialect (bound + 1) rest
      .ok ((slot dialect (bound + 1) v).toList ++ sql, v :: values)

/-- The statement in the dialect's own form, and the values to bind in order. -/
def expand (sql : String) (params : Params) (dialect : Dialect) :
    Except Failure (String × List Value) :=
  (fill params dialect 0 (pieces sql)).map fun (text, values) => (.ofList text, values)

end RecordLayer.Sql
