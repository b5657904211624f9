import RecordLayer.Store.Datum
import RecordLayer.Text.Mark
import RecordLayer.Text.Word

/-!
# Store — Lexeme

Statements for the store as lexemes: names, quoted names, texts, numbers, placeholders in the
order in which values are bound to them, and marks.  Each keeps the text from its first character
up to the next lexeme, blanks and comments included.  What cannot be read is a lexeme of its own,
which spoils only the statement that it stands in.
-/

namespace RecordLayer.Store
open Text

inductive Lexeme where
  | name (s : String)
  /-- a name in quotes, and whether these are double quotes -/
  | quotedName (double : Bool) (s : String)
  | text (s : String)
  | whole (n : Nat)
  /-- a number with a point or an exponent, one in hexadecimal, or bytes -/
  | value (d : Datum)
  | placeholder (place : Nat)
  | mark (s : String)
  | unreadable
deriving DecidableEq

/-- A lexeme and the text from its beginning to that of the next one. -/
structure Lexed where
  lexeme : Lexeme
  text : List Char

/-! ### Gaps -/

/-- What is left behind a blank or a comment, if the text begins with one. -/
def pastGap? : List Char → Option (List Char)
  | '\ufeff' :: s => some s
  | '-' :: '-' :: s => some (s.dropWhile (· != '\n'))
  | '/' :: '*' :: s =>
    if s.isEmpty then none else some (((cutFirst? ['*', '/'] s).map (·.2)).getD [])
  | c :: s => if isAsciiBlank c then some (s.dropWhile Numeral.isAround) else none
  | [] => none

/-- What is left behind all blanks and comments, of which there are at most so many. -/
def pastGaps : Nat → List Char → List Char
  | 0, s => s
  | n + 1, s =>
    match pastGap? s with
    | some rest => pastGaps n rest
    | none => s

/-! ### Names and numbers -/

def isNameStart (c : Char) : Bool :=
  isWordStart c || '\x7f' < c

def isNameChar (c : Char) : Bool :=
  isWordChar c || c == '$' || '\x7f' < c

/-- The inside of a quoted text, given what follows the opening quote, with doubled quotes
single, and what follows it; nothing if the text is not closed. -/
def unquoted? (quote : Char) : List Char → Option (List Char × List Char)
  | [] => none
  | [c] => if c = quote then some ([], []) else none
  | c :: d :: s =>
    if c = quote then
      if d = quote then (unquoted? quote s).map fun (inside, rest) => (quote :: inside, rest)
      else some ([], d :: s)
    else (unquoted? quote (d :: s)).map fun (inside, rest) => (c :: inside, rest)

/-- Digits of a class with single underscores between them, and what follows. -/
def digitRun (isDigit : Char → Bool) : List Char → List Char × List Char
  | c :: '_' :: d :: s =>
    if isDigit c && isDigit d then
      let (digits, rest) := digitRun isDigit (d :: s)
      (c :: digits, rest)
    else if isDigit c then ([c], '_' :: d :: s)
    else ([], c :: '_' :: d :: s)
  | c :: s =>
    if isDigit c then
      let (digits, rest) := digitRun isDigit s
      (c :: digits, rest)
    else ([], c :: s)
  | [] => ([], [])

/-- The exponent that a number ends in, with its letter, and what follows. -/
def exponentRun : List Char → List Char × List Char
  | e :: s =>
    if e == 'e' || e == 'E' then
      let (sign, s') := match s with
        | '-' :: s => (['-'], s)
        | '+' :: s => ([], s)
        | s => ([], s)
      let (digits, rest) := digitRun Char.isDigit s'
      if digits.isEmpty then ([], e :: s) else ('e' :: sign ++ digits, rest)
    else ([], e :: s)
  | [] => ([], [])

/-- A hexadecimal number of 64 bits. -/
def hexadecimal (digits : List Char) : Lexeme :=
  match numberIn? 16 digits with
  | some n => if n < twoTo 64 then .value (.int (.ofNat n)) else .unreadable
  | none => .unreadable

/-- The number at the head of a text that begins with a digit or a point. -/
def numberLexeme (s : List Char) : Lexeme × List Char :=
  match hexDigits s with
  | some (digits, rest) => (hexadecimal digits, rest)
  | none =>
    let (before, rest) := digitRun Char.isDigit s
    let (behind, rest) := match rest with
      | '.' :: rest =>
        let (digits, rest) := digitRun Char.isDigit rest
        ('.' :: digits, rest)
      | rest => ([], rest)
    let (exponent, rest) := exponentRun rest
    if behind.isEmpty && exponent.isEmpty then (.whole (numberOf before), rest)
    else match Numeral.read? (before ++ behind ++ exponent) with
      | some n => (.value n.datum, rest)
      | none => (.unreadable, rest)
where
  hexDigits : List Char → Option (List Char × List Char)
    | '0' :: x :: s =>
      let (digits, rest) := digitRun (hexValue? · |>.isSome) s
      if (x == 'x' || x == 'X') && !digits.isEmpty then some (digits, rest) else none
    | _ => none

/-- The bytes that pairs of hexadecimal digits write. -/
def bytes? : List Char → Option (List UInt8)
  | [] => some []
  | a :: b :: s => do
    let n ← numberIn? 16 [a, b]
    return .ofNat n :: (← bytes? s)
  | [_] => none

/-! ### Lexemes -/

/-- The marks of more than one character, longer ones first. -/
def longMarks : List (List Char) :=
  [['<', '>'], ['<', '='], ['>', '='], ['=', '='], ['!', '='], ['|', '|'], ['<', '<'],
    ['>', '>']]

def shortMarks : List Char :=
  ['(', ')', ',', ';', '.', '*', '=', '<', '>', '+', '-', '/', '%', '&', '|', '~']

/-- The lexeme of a quoted name. -/
def quotedLexeme (quote : Char) (s : List Char) : Lexeme × List Char :=
  match unquoted? quote s with
  | some (inside, rest) =>
    let inside : String := .ofList inside
    (if quote = '\'' then .text inside else .quotedName (quote == '"') inside, rest)
  | none => (.unreadable, [])

/-- The lexeme of a placeholder, given what follows its first character; `bound` counts those
before it. -/
def placeholderLexeme (numbered : Bool) (bound : Nat) (s : List Char) : Lexeme × List Char :=
  let digits := s.takeWhile Char.isDigit
  let rest := s.dropWhile Char.isDigit
  if digits.isEmpty then (if numbered then .unreadable else .placeholder bound, rest)
  else (.placeholder (numberOf digits - 1), rest)

/-- The lexeme that begins with `c`, and what follows. -/
def lexemeAt (bound : Nat) (c : Char) (s : List Char) : Lexeme × List Char :=
  if c = '\'' ∨ c = '"' ∨ c = '\x60' then quotedLexeme c s
  else if c = '[' then
    match cutFirst? [']'] s with
    | some (inside, rest) => (.quotedName false (.ofList inside), rest)
    | none => (.unreadable, [])
  else if (c = 'x' ∨ c = 'X') ∧ s.head? = some '\'' then
    match unquoted? '\'' s.tail with
    | some (digits, rest) =>
      (((bytes? digits).map fun b => .value (.blob b)).getD .unreadable, rest)
    | none => (.unreadable, [])
  else if isNameStart c then
    (.name (.ofList (c :: s.takeWhile isNameChar)), s.dropWhile isNameChar)
  else if c.isDigit ∨ (c = '.' ∧ s.head?.any Char.isDigit) then
    let (lexeme, rest) := numberLexeme (c :: s)
    if rest.head?.any isNameChar then (.unreadable, rest) else (lexeme, rest)
  else if c = '?' then placeholderLexeme false bound s
  else if c = '$' then placeholderLexeme true bound s
  else
    match longMarks.find? (beginsWith · (c :: s)) with
    | some mark => (.mark (.ofList mark), s.tail)
    | none => (if shortMarks.contains c then .mark (.singleton c) else .unreadable, s)

/-- The lexemes of a text without a gap at its head, of which there are at most so many. -/
def lexedFrom : Nat → Nat → List Char → List Lexed
  | _, _, [] => []
  | 0, _, _ => []
  | n + 1, bound, c :: s =>
    let (lexeme, rest) := lexemeAt bound c s
    let rest := pastGaps rest.length rest
    let bound := match lexeme with
      | .placeholder place => max bound (place + 1)
      | _ => bound
    ⟨lexeme, (c :: s).take (s.length + 1 - rest.length)⟩ :: lexedFrom n bound rest

/-- The lexemes of a text. -/
def lexed (sql : String) : List Lexed :=
  let s := pastGaps sql.length sql.toList
  lexedFrom s.length 0 s

/-- The statements of a text between its semicolons, empty ones left out. -/
def commands (ls : List Lexed) : List (List Lexed) :=
  (ls.foldr (fun l rest =>
    match l.lexeme, rest with
    | .mark ";", rest => [] :: rest
    | _, [] => [[l]]
    | _, command :: rest => (l :: command) :: rest) [[]]).filter (!·.isEmpty)

end RecordLayer.Store
