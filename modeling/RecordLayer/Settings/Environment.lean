import RecordLayer.Json.Overlay
import RecordLayer.Text.Blank
import RecordLayer.Text.Quoted
import RecordLayer.Text.Scan
import RecordLayer.Text.Word

/-!
# Settings — Environment

Settings from environment variables.  A variable belongs to the settings by the beginning of its
name; two underscores lead from a section into it, and letter case does not count.  Its value
is a truth value, a number, a text or a character in quotes, a list, a table, or else the plain
text.
-/

namespace RecordLayer.Settings
open Text

/-- What the names of variables begin with. -/
def variablePrefix : List Char :=
  "agentdb_".toList

/-- The names that variables usually have, one for each setting. -/
def variableNames : List String :=
  "AGENTDB_BASIC__LOGLEVEL" ::
    ["DIALECT", "HOST", "PORT", "USER", "PASSWORD", "NAME", "SSL_MODE", "PATH",
      "MIGRATIONS_DIR", "MAX_CONNECTIONS", "ACQUIRE_TIMEOUT_SECS", "QUERY_TIMEOUT_SECS",
      "RESET"].map ("AGENTDB_DATABASE__" ++ ·)

/-! ### Values -/

/-- The greatest whole numbers have 64 bits, without a sign or with one. -/
def wholeNumber? (s : List Char) : Option Int :=
  match s with
  | '-' :: digits =>
    (natural? digits).bind fun n => if n ≤ twoTo 63 then some (-(n : Int)) else none
  | '+' :: digits => (natural? digits).bind below
  | digits => (natural? digits).bind below
where
  below (n : Nat) : Option Int :=
    if n < twoTo 64 then some n else none

/-- The text is a number with a point: digits on one side of it at least, perhaps an exponent. -/
def isPointed (s : List Char) : Bool :=
  let size := match s with
    | '-' :: s => s
    | '+' :: s => s
    | s => s
  let whole := size.takeWhile Char.isDigit
  match size.dropWhile Char.isDigit with
  | '.' :: rest =>
    let exponent := rest.dropWhile Char.isDigit
    !(whole.isEmpty && (rest.takeWhile Char.isDigit).isEmpty) && match exponent with
      | [] => true
      | 'e' :: '-' :: s | 'e' :: '+' :: s | 'E' :: '-' :: s | 'E' :: '+' :: s
      | 'e' :: s | 'E' :: s => (natural? s).isSome
      | _ => false
  | _ => false

/-- The value of a text that is not in quotes. -/
def plainValue (s : List Char) : Json :=
  if isPointed s then .real (.ofList s)
  else match wholeNumber? s with
    | some n => .int n
    | none => .text (.ofList s)

def isSeparator (c : Char) : Bool :=
  c == ',' || c == '\x7b' || c == '\x7d' || c == '[' || c == ']'

def skipBlanks : Scan Unit := do
  let _ ← Scan.run isAsciiBlank

/-- The longest head of a text that takes at most so many bytes. -/
def headOfBytes (room : Nat) : List Char → List Char
  | [] => []
  | c :: s => if c.utf8Size ≤ room then c :: headOfBytes (room - c.utf8Size) s else []

/-- The inside of a quoted text, given what follows the opening quote.  If there is an escape in it,
the characters before the first one have only as many bytes as they are characters. -/
def variableText (s inside : List Char) : String :=
  let lead := s.takeWhile fun c => c != '"' && c != '\\'
  if s[lead.length]? = some '\\' then
    .ofList (headOfBytes lead.length lead ++ inside.drop lead.length)
  else .ofList inside

/-- The rest of a text behind its opening quote. -/
def restOfQuoted : Scan String := fun s =>
  (throughQuoted? s).map fun (inside, rest) => (variableText s inside, rest)

def variableKey : Scan String := do
  if ← Scan.skip ['"'] then restOfQuoted
  else
    let name ← Scan.run fun c => c.isAlphanum || c == '_' || c == '-'
    guard !name.isEmpty
    return .ofList name

/-- Items behind the opening bracket and up to the closing one, with commas between them and
perhaps one behind the last. -/
def itemsUpTo {α : Type} (closing : Char) (item : Scan α) : Scan (List α) := do
  let items ← Scan.many do
    if (← Scan.peek) = some closing then return none
    else
      let x ← item
      if !(← Scan.skip [',']) then guard ((← Scan.peek) = some closing)
      return some x
  Scan.char closing
  return items

/-- A value in which brackets nest at most to a depth. -/
def variableValue (depth : Nat) : Scan Json := do
  skipBlanks
  let doc ← inside depth
  skipBlanks
  return doc
where
  inside : Nat → Scan Json
    | 0 => failure
    | depth + 1 => do
      if ← Scan.skip "true".toList then return .bool true
      else if ← Scan.skip "false".toList then return .bool false
      else if ← Scan.skip ['\x7b'] then
        let entries ← itemsUpTo '\x7d' do
          skipBlanks
          let name ← variableKey
          skipBlanks
          Scan.char '='
          skipBlanks
          let doc ← inside depth
          skipBlanks
          return (name, doc)
        return .object (entries.foldl (fun done (name, doc) => Json.putEntry name doc done) [])
      else if ← Scan.skip ['['] then
        let items ← itemsUpTo ']' do
          skipBlanks
          let doc ← inside depth
          skipBlanks
          return doc
        return .list items
      else if ← Scan.skip ['"'] then return .text (← restOfQuoted)
      else if ← Scan.skip ['\''] then
        let c ← Scan.next
        Scan.char '\''
        return .text (.singleton c)
      else return plainValue (trimmed (← Scan.run (!isSeparator ·)))

/-- The value of a variable; a text that is no value in brackets or quotes stands as it is. -/
def valueOf (s : List Char) : Json :=
  (Scan.all? (variableValue (s.length + 1)) s).getD (.text (.ofList s))

/-! ### Names -/

/-- A text in which every mark of two underscores is a point. -/
def withPoints : List Char → List Char
  | '_' :: '_' :: s => '.' :: withPoints s
  | c :: s => c :: withPoints s
  | [] => []

/-- The sections and the setting that a variable's name leads to, without blanks around them;
nothing if it is not one of these variables or leaves one of them out. -/
def pathOf? (name : List Char) : Option (List (List Char)) :=
  (afterMark? variablePrefix (folded name)).bind fun rest =>
    let path := cutAt '.' (trimmed (withPoints rest))
    if path.any (·.isEmpty) then none else some path

/-- A document with one value at the end of a path. -/
def nested (doc : Json) (path : List (List Char)) : Json :=
  path.foldr (fun name doc => .object [(.ofList name, doc)]) doc

/-- The document that variables make; of two for one setting the later counts. -/
def ofEnvironment (environment : List (String × String)) : Json :=
  environment.foldl (fun doc (name, value) =>
    match pathOf? name.toList with
    | none => doc
    | some path => doc.overlay (nested (valueOf value.toList) path)) (.object [])

end RecordLayer.Settings
