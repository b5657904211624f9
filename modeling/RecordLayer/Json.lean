import RecordLayer.Value

/-!
# JSON

JSON documents: the form in which values, changesets and records are shown, and an indented
layout for logs.  Objects keep the order in which their entries were put.
-/

namespace RecordLayer

inductive Json where
  | null
  | bool (b : Bool)
  | int (n : Int)
  /-- a number with a fraction or an exponent, as written -/
  | real (numeral : String)
  | text (s : String)
  | list (items : List Json)
  | object (entries : List (String × Json))
deriving Inhabited

namespace Json

/-- The entry of an object, if the document is one and has it. -/
def entry? (name : String) : Json → Option Json
  | object entries => entries.lookup name
  | _              => none

def hexDigit (n : Nat) : Char :=
  "0123456789abcdef".toList.getD n '0'

/-- A character inside quotes: quotes, backslashes and control characters are escaped. -/
def escaped (c : Char) : List Char :=
  match c with
  | '"'    => ['\\', '"']
  | '\\'   => ['\\', '\\']
  | '\n'   => ['\\', 'n']
  | '\r'   => ['\\', 'r']
  | '\t'   => ['\\', 't']
  | '\x08' => ['\\', 'b']
  | '\x0c' => ['\\', 'f']
  | c =>
    if c.toNat < 32 then
      ['\\', 'u', '0', '0', hexDigit (c.toNat / 16), hexDigit (c.toNat % 16)]
    else [c]

def quoted (s : String) : String :=
  .ofList ('"' :: (s.toList.flatMap escaped ++ ['"']))

def indent (depth : Nat) : String :=
  .ofList (List.replicate (2 * depth) ' ')

mutual

/-- One item or entry a line, two blanks deeper for each bracket around it. -/
def layout (depth : Nat) : Json → String
  | null         => "null"
  | bool b       => if b then "true" else "false"
  | int n        => toString n
  | real numeral => numeral
  | text s       => quoted s
  | list []      => "[]"
  | list items   => "[\n" ++ layoutItems (depth + 1) items ++ "\n" ++ indent depth ++ "]"
  | object []    => "\x7b\x7d"
  | object entries =>
    "\x7b\n" ++ layoutEntries (depth + 1) entries ++ "\n" ++ indent depth ++ "\x7d"

def layoutItems (depth : Nat) : List Json → String
  | []            => ""
  | [item]        => indent depth ++ layout depth item
  | item :: items => indent depth ++ layout depth item ++ ",\n" ++ layoutItems depth items

def layoutEntries (depth : Nat) : List (String × Json) → String
  | []            => ""
  | [(name, doc)] => indent depth ++ quoted name ++ ": " ++ layout depth doc
  | (name, doc) :: entries =>
    indent depth ++ quoted name ++ ": " ++ layout depth doc ++ ",\n" ++
      layoutEntries depth entries

end

/-- The indented layout of a document. -/
def pretty (doc : Json) : String :=
  doc.layout 0

end Json

/-- Values in documents: decimals as text, instants in the internet form ending in `Z`. -/
def Value.toJson : Value → Json
  | null        => .null
  | text s      => .text s
  | int n       => .int n.toInt
  | bool b      => .bool b
  | decimal d   => .text (toString d)
  | timestamp t => .text (.ofList t.renderZulu)

end RecordLayer
