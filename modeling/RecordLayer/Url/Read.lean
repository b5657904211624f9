import RecordLayer.Url

/-!
# URLs — Reading

A URL of a given scheme from the text behind its two slashes.  The part up to the first slash,
question mark or number sign says user, password, host and port; tabs and line breaks do not
count anywhere, nor do control characters and blanks at the end.
-/

namespace RecordLayer.Url
open Text

/-- Why a text is no URL. -/
inductive ReadError where
  | emptyHost
  | port
  | address
  | hostCharacter
deriving DecidableEq, Repr

def ReadError.message : ReadError → String
  | emptyHost     => "empty host"
  | port          => "invalid port number"
  | address       => "invalid IPv6 address"
  | hostCharacter => "invalid domain character"

/-- The text as far as it counts. -/
def relevant (s : List Char) : List Char :=
  (s.reverse.dropWhile (· ≤ ' ')).reverse.filter (!isLayout ·)

/-! ### Host -/

def isForeignToHost (c : Char) : Bool :=
  c == '\x00' || c == '\t' || c == '\n' || c == '\r' || c == ' ' || c == '#' || c == '/' ||
    c == ':' || c == '<' || c == '>' || c == '?' || c == '@' || c == '[' || c == '\\' ||
    c == ']' || c == '^' || c == '|'

/-- The text in the brackets around an address. -/
def bracketed? : List Char → Option (List Char)
  | '[' :: s => beforeMark? [']'] s
  | _ => none

/-- The host of a text; none if it is empty. -/
def readHost (s : List Char) : Except ReadError (Option Host) :=
  if s.head? = some '[' then
    match (bracketed? s).bind Address.ofText? with
    | some address => .ok (some (.address address))
    | none => .error .address
  else if s.any isForeignToHost then .error .hostCharacter
  else if s.isEmpty then .ok none
  else .ok (some (.name (escapeWhere isUnprinted s)))

/-- Cuts before the first colon that stands outside brackets. -/
def cutHost (inside : Bool) : List Char → List Char × List Char
  | [] => ([], [])
  | c :: s =>
    if c = ':' ∧ !inside then ([], c :: s)
    else
      let (host, rest) := cutHost (if c = '[' then true else if c = ']' then false else inside) s
      (c :: host, rest)

/-! ### Port -/

/-- The port of a text, and what follows it: a backslash ends a port. -/
def readPort (s : List Char) : Except ReadError (Option Nat × List Char) :=
  let digits := s.takeWhile Char.isDigit
  let rest := s.dropWhile Char.isDigit
  if 65535 < numberOf digits then .error .port
  else if rest.isEmpty || rest.head? = some '\\' then
    .ok (if digits.isEmpty then none else some (numberOf digits), rest)
  else .error .port

/-! ### User and password -/

/-- User and password of a text, cut at its first colon. -/
def readUser (s : List Char) : List Char × List Char :=
  let part := escapeWhere isForeignToUser
  match cutFirst? [':'] s with
  | some (user, password) => (part user, part password)
  | none => (part s, [])

/-! ### The whole -/

/-- What stands before the first character that satisfies `p`, and what follows from there. -/
def cutBefore (p : Char → Bool) (s : List Char) : List Char × List Char :=
  (s.takeWhile (!p ·), s.dropWhile (!p ·))

/-- The text behind a mark, if it begins with it. -/
def partBehind? (mark : Char) (s : List Char) : Option (List Char) :=
  afterMark? [mark] s

/-- The URL of a scheme and the text behind its two slashes. -/
def read (scheme : String) (text : String) : Except ReadError Url := do
  let (authority, rest) :=
    cutBefore (fun c => c == '/' || c == '?' || c == '#') (relevant text.toList)
  if authority = ['@'] ∧ !rest.isEmpty then throw .emptyHost
  let (account, place) := (cutLast? ['@'] authority).getD ([], authority)
  let (user, password) := readUser account
  let (hostText, portText) := cutHost false place
  let host ← readHost hostText
  if host.isNone ∧ (portText ≠ [] ∨ user ≠ [] ∨ password ≠ []) then throw .emptyHost
  let (port, beyond) ← readPort (portText.drop 1)
  let (path, rest) := cutBefore (fun c => c == '?' || c == '#') (beyond ++ rest)
  let (query, rest) := cutBefore (· == '#') rest
  return {
    scheme, user, password, host, port,
    path := if path.isEmpty then [] else Path.ofText ((partBehind? '/' path).getD path),
    query := (partBehind? '?' query).map (escapeWhere isForeignToQuery),
    fragment := (partBehind? '#' rest).map (escapeWhere isForeignToFragment) }

end RecordLayer.Url
