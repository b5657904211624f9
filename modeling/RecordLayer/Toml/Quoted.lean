import RecordLayer.Text.Quoted
import RecordLayer.Text.Scan

/-!
# TOML — Quoted

Texts in quotes: with escapes in double quotes, without any in single ones.  Three quotes of either
kind enclose a text of several lines; a line break right behind the opening ones does not belong
to it, and in double quotes neither do a backslash at the end of a line and the blanks behind it.
-/

namespace RecordLayer.Toml
open Text

def isGap (c : Char) : Bool :=
  c == ' ' || c == '\t'

/-- What three quotes close: up to two quotes before them belong to the text.  Nothing if there
are fewer than three. -/
def closing? (quote : Char) (s : List Char) : Option (List Char × List Char) :=
  let quotes := (s.takeWhile (· == quote)).length
  let inside := min (quotes - 3) 2
  if quotes < 3 then none else some (List.replicate inside quote, s.drop (inside + 3))

/-- The inside of a text of several lines without escapes, and what follows it. -/
def throughLiteralLines? : List Char → Option (List Char × List Char)
  | [] => none
  | c :: s =>
    match closing? '\'' (c :: s) with
    | some ended => some ended
    | none =>
      if isPrinted c ∨ c = '\n' then
        (throughLiteralLines? s).map fun (inside, rest) => (c :: inside, rest)
      else none

/-- The line ends here, apart from blanks. -/
def endsLine (s : List Char) : Bool :=
  (s.dropWhile isGap).head? == some '\n'

/-- The inside of a text of several lines with escapes, and what follows it; `folding` passes
over the blanks behind a backslash at the end of a line. -/
def throughLines? (folding : Bool) : List Char → Option (List Char × List Char)
  | [] => none
  | '\\' :: 'u' :: a :: b :: c :: d :: s => do
    let x ← numbered? [a, b, c, d]
    let (inside, rest) ← throughLines? false s
    some (x :: inside, rest)
  | '\\' :: 'U' :: a :: b :: c :: d :: e :: f :: g :: h :: s => do
    let x ← numbered? [a, b, c, d, e, f, g, h]
    let (inside, rest) ← throughLines? false s
    some (x :: inside, rest)
  | '\\' :: letter :: s =>
    if endsLine (letter :: s) then throughLines? true s
    else do
      let x ← shortEscape? letter
      let (inside, rest) ← throughLines? false s
      some (x :: inside, rest)
  | c :: s =>
    if folding ∧ (isGap c ∨ c = '\n') then throughLines? true s
    else match closing? '"' (c :: s) with
      | some ended => some ended
      | none =>
        if c ≠ '\\' ∧ (isPrinted c ∨ c = '\n') then
          (throughLines? false s).map fun (inside, rest) => (c :: inside, rest)
        else none

/-- The inside of a text on one line without escapes, and what follows it. -/
def throughLiteral? (s : List Char) : Option (List Char × List Char) := do
  let (inside, rest) ← cutFirst? ['\''] s
  if inside.all isPrinted then some (inside, rest) else none

/-- A line break at the head of a text is left out. -/
def withoutBreak : List Char → List Char
  | '\n' :: s => s
  | s         => s

/-- A text on one line, if a quote comes next. -/
def lineText : Scan (Option String) := fun s =>
  let result := match s with
    | '"' :: s  => (throughQuoted? s).map some
    | '\'' :: s => (throughLiteral? s).map some
    | _         => some none
  result.map fun
    | some (inside, rest) => (some (.ofList inside), rest)
    | none => (none, s)

/-- A text in quotes of any kind, if one comes next. -/
def quotedText : Scan (Option String) := do
  if ← Scan.skip ['"', '"', '"'] then fun s =>
    (throughLines? false (withoutBreak s)).map fun (inside, rest) => (some (.ofList inside), rest)
  else if ← Scan.skip ['\'', '\'', '\''] then fun s =>
    (throughLiteralLines? (withoutBreak s)).map fun (inside, rest) =>
      (some (.ofList inside), rest)
  else lineText

end RecordLayer.Toml
