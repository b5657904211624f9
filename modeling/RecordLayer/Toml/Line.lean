import RecordLayer.Toml.Quoted
import RecordLayer.Toml.Scalar
import RecordLayer.Toml.Table

/-!
# TOML — Line

The lines of a text: a key with its value, the header of a table, the header of one more table of
a name, or nothing but a comment.  Values nest at most 79 deep.
-/

namespace RecordLayer.Toml
open Text

inductive Line where
  | blank
  | entry (path : List String) (doc : Json)
  | header (path : List String)
  | nextHeader (path : List String)

/-- Depths and lengths of paths stay below this. -/
def nestingLimit : Nat := 80

def gap : Scan Unit := do
  let _ ← Scan.run isGap

/-- The rest of a line behind a number sign. -/
def comment : Scan Unit := do
  if ← Scan.skip ['#'] then
    let _ ← Scan.run isPrinted

/-- Blanks, comments and line breaks. -/
def gaps : Scan Unit := do
  let _ ← Scan.many do
    let before := (← get).length
    gap
    comment
    let _ ← Scan.skip ['\n']
    return if (← get).length < before then some () else none

/-! ### Keys -/

def isKeyChar (c : Char) : Bool :=
  c.isAlphanum || c == '_' || c == '-'

def key : Scan String := do
  match ← lineText with
  | some name => return name
  | none =>
    let name ← Scan.run isKeyChar
    guard !name.isEmpty
    return .ofList name

/-- Keys with points between them. -/
def path : Scan (List String) := do
  gap
  let first ← key
  gap
  let more ← Scan.many do
    if ← Scan.skip ['.'] then
      gap
      let name ← key
      gap
      return some name
    else return none
  guard (more.length + 1 < nestingLimit)
  return first :: more

/-- A key and its value. -/
def entry (value : Scan Json) : Scan (List String × Json) := do
  let path ← path
  Scan.char '='
  gap
  let doc ← value
  gap
  return (path, doc)

/-! ### Values -/

/-- The items of a list behind its opening bracket; a comma may follow the last one. -/
def listItems (value : Scan Json) : Scan (List Json) := do
  gaps
  let items ← Scan.many do
    if (← Scan.peek) == some ']' then return none
    let item ← value
    gaps
    if !(← Scan.skip [',']) then guard ((← Scan.peek) == some ']')
    gaps
    return some item
  Scan.char ']'
  return items

/-- The entries of a table on one line behind its opening brace. -/
def tableEntries (value : Scan Json) : Scan (List (List String × Json)) := do
  gap
  if ← Scan.skip ['\x7d'] then return []
  let first ← entry value
  let more ← Scan.many do
    if ← Scan.skip [','] then return some (← entry value) else return none
  Scan.char '\x7d'
  return first :: more

/-- A text or another scalar. -/
def simpleValue : Scan Json := do
  match ← quotedText with
  | some s => return .text s
  | none => scalar

/-- A value in which lists and tables nest at most to a depth. -/
def value : Nat → Scan Json
  | 0 => simpleValue
  | depth + 1 => do
    if ← Scan.skip ['['] then return .list (← listItems (value depth))
    else if ← Scan.skip ['\x7b'] then
      let entries ← tableEntries (value depth)
      let t ← (entries.foldlM (fun t (path, doc) => Table.insert? path doc t) Table.fresh).getM
      return t.toJson
    else simpleValue

/-! ### Lines -/

/-- What a line holds before its comment. -/
def content : Scan Line := do
  match ← Scan.peek with
  | none | some '#' | some '\n' => return .blank
  | some '[' =>
    if ← Scan.skip ['[', '['] then
      let path ← path
      Scan.char ']'
      Scan.char ']'
      return .nextHeader path
    else
      Scan.char '['
      let path ← path
      Scan.char ']'
      return .header path
  | some _ =>
    let (path, doc) ← entry (value (nestingLimit - 1))
    return .entry path doc

def line : Scan Line := do
  gap
  let line ← content
  gap
  comment
  if !(← get).isEmpty then Scan.char '\n'
  return line

def lines : Scan (List Line) :=
  Scan.many do
    if (← get).isEmpty then return none else return some (← line)

end RecordLayer.Toml
