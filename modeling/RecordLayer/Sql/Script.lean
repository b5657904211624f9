import RecordLayer.Sql.Token
import RecordLayer.Text.Blank

/-!
# SQL — Script

A script is cut into statements at its semicolons, except those in quotes, comments and
dollar-quoted bodies and those inside a block.  A block opens with `BEGIN` or `CASE`, unless the
word is the first of its statement (a leading `BEGIN` opens a transaction), and closes with
`END`.  Statements that say nothing are dropped.
-/

namespace RecordLayer.Sql
open Text

/-- The token says something: it is neither a comment nor a blank. -/
def Token.isCode : Token → Bool
  | comment _ => false
  | symbol c  => !isAsciiBlank c
  | quoted _  => true
  | word _    => true

def Token.opensBlock : Token → Bool
  | word w => sameWord w "begin".toList || sameWord w "case".toList
  | _      => false

def Token.closesBlock : Token → Bool
  | word w => sameWord w "end".toList
  | _      => false

/-- How far a statement has come: the blocks open, and whether anything was said. -/
structure Progress where
  depth : Nat
  code : Bool
deriving DecidableEq, Repr

/-- The start of a statement. -/
def Progress.start : Progress := ⟨0, false⟩

/-- The progress behind one more token. -/
def Progress.after (p : Progress) (t : Token) : Progress where
  depth :=
    if t.opensBlock then (if p.code then p.depth + 1 else p.depth)
    else if t.closesBlock then p.depth - 1
    else p.depth
  code := p.code || t.isCode

/-- The token ends the statement. -/
def Progress.isCut (p : Progress) (t : Token) : Bool :=
  p.depth == 0 && t == .symbol ';'

/-- The stretches of tokens between the cuts. -/
def stretches (p : Progress) : List Token → List (List Token)
  | [] => [[]]
  | t :: ts =>
    if p.isCut t then [] :: stretches .start ts
    else match stretches (p.after t) ts with
      | [] => [[t]]
      | stretch :: rest => (t :: stretch) :: rest

/-- The statements of a script, in order and without the blanks around them. -/
def statements (script : String) : List String :=
  ((stretches .start (tokens script.toList)).filter (·.any Token.isCode)).map fun stretch =>
    .ofList (trimmed (textOf stretch))

end RecordLayer.Sql
