import RecordLayer.Toml.Line

/-!
# TOML

Reading a settings file: its lines make one table, which is given as a document.  The text is
refused as a whole if a line cannot be read, or if two lines do not go together.
-/

namespace RecordLayer.Toml
open Text

/-- The table that lines have made so far, and the header they stand under. -/
structure Progress where
  root : Table
  header : List String

def Progress.add? (p : Progress) : Line → Option Progress
  | .blank => some p
  | .entry path doc => do
    let root ← Table.change? false (Table.insert? path doc) p.header p.root
    some { p with root }
  | .header path => do
    let root ← Table.open? path p.root
    some ⟨root, path⟩
  | .nextHeader path => do
    let root ← Table.openNext? path p.root
    some ⟨root, path⟩

/-- Line breaks are one character each, however they are written. -/
def withPlainBreaks : List Char → List Char
  | '\r' :: '\n' :: s => '\n' :: withPlainBreaks s
  | c :: s => c :: withPlainBreaks s
  | [] => []

/-- The text behind a byte order mark. -/
def withoutMark : List Char → List Char
  | '\ufeff' :: s => s
  | s => s

/-- The document that a text stands for. -/
def read? (text : String) : Option Json := do
  let lines ← Scan.all? lines (withPlainBreaks (withoutMark text.toList))
  let p ← lines.foldlM Progress.add? ⟨Table.fresh, []⟩
  some p.root.toJson

end RecordLayer.Toml
