import RecordLayer.Text.Blank

/-!
# SQL — Preview

A statement on one line for a log: its words with single blanks between them, cut after 160
characters.
-/

namespace RecordLayer.Sql
open Text

def previewLimit : Nat := 160

/-- The words of a text with one blank between them. -/
def flattened (s : List Char) : List Char :=
  joined [' '] (words s)

/-- The text on one line, with three dots where it is cut. -/
def preview (sql : String) : String :=
  let flat := flattened sql.toList
  .ofList (if flat.length ≤ previewLimit then flat
    else flat.take previewLimit ++ ['.', '.', '.'])

end RecordLayer.Sql
