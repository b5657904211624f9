import RecordLayer.Store.Lexeme

/-!
# Store — Reader

Reading from the head of the lexemes of a statement: words, marks and names, and lists of
things.  What cannot be read is a syntax error.
-/

namespace RecordLayer.Store

/-- Reads from the head of the lexemes, or fails. -/
abbrev Reader := StateT (List Lexed) Option

namespace Reader

/-- The next lexemes, which stay where they are. -/
def ahead : Reader (List Lexeme) := do
  return ((← get).take 3).map (·.lexeme)

def next : Reader Lexeme := do
  match ← get with
  | l :: rest => set rest; return l.lexeme
  | [] => failure

/-- Passes over so many lexemes. -/
def pass (n : Nat) : Reader Unit :=
  modify (·.drop n)

/-- The lexeme is the given word, in either letter case. -/
def isWord (word : String) : Lexeme → Bool
  | .name s => sameName s word
  | _       => false

def hasWord (word : String) : Reader Bool := do
  return (← ahead).head?.any (isWord word)

/-- Passes over a word if it comes next. -/
def skipWord (word : String) : Reader Bool := do
  if ← hasWord word then
    pass 1
    return true
  else return false

def word (w : String) : Reader Unit := do
  guard (isWord w (← next))

def wordList : List String → Reader Unit
  | []      => pure ()
  | w :: ws => do word w; wordList ws

/-- Passes over words if the first comes next; the others have to follow. -/
def skipWords : List String → Reader Bool
  | []      => return false
  | w :: ws => do
    if ← skipWord w then
      wordList ws
      return true
    else return false

def mark (s : String) : Reader Unit := do
  guard ((← next) == .mark s)

def hasMark (s : String) : Reader Bool := do
  return (← ahead).head? == some (.mark s)

def skipMark (s : String) : Reader Bool := do
  if ← hasMark s then
    pass 1
    return true
  else return false

def finished : Reader Unit := do
  guard (← get).isEmpty

/-! ### Names -/

/-- The words that are no names unless they are quoted. -/
def reservedWords : List String :=
  ["add", "all", "alter", "and", "as", "autoincrement", "between", "case", "check", "collate",
    "commit", "constraint", "create", "default", "deferrable", "delete", "distinct", "drop",
    "else", "escape", "except", "exists", "foreign", "from", "group", "having", "in", "index",
    "insert", "intersect", "into", "is", "isnull", "join", "limit", "not", "nothing", "notnull",
    "null", "on", "or", "order", "primary", "references", "returning", "select", "set", "table",
    "then", "to", "transaction", "union", "unique", "update", "using", "values", "when", "where"]

def isReserved (s : String) : Bool :=
  reservedWords.any (sameName s)

/-- The name that a lexeme is, plain or quoted. -/
def nameOf? : Lexeme → Option String
  | .name s         => if isReserved s then none else some s
  | .quotedName _ s => some s
  | .text s         => some s
  | _               => none

def name : Reader String := do
  match nameOf? (← next) with
  | some s => return s
  | none => failure

/-- A name, if one comes next. -/
def name? : Reader (Option String) := do
  match (← ahead).head?.bind nameOf? with
  | some s => pass 1; return some s
  | none => return none

/-- The name of a table; the store is called `main`. -/
def tableName : Reader String := do
  let first ← name
  if ← skipMark "." then
    let table ← name
    return if sameName first "main" then table else first ++ "." ++ table
  else return first

/-- Another name that something is given. -/
def label? : Reader (Option String) := do
  if ← skipWord "as" then return some (← name) else name?

/-! ### Lists -/

def listLoop {α : Type} (item : Reader α) : Nat → Reader (List α)
  | 0     => failure
  | n + 1 => do
    let x ← item
    if ← skipMark "," then return x :: (← listLoop item n) else return [x]

/-- Items with commas between them. -/
def list {α : Type} (item : Reader α) : Reader (List α) := do
  listLoop item ((← get).length + 1)

/-- An item in brackets. -/
def inBrackets {α : Type} (item : Reader α) : Reader α := do
  mark "("
  let x ← item
  mark ")"
  return x

/-- Items with commas between them, in brackets. -/
def bracketed {α : Type} (item : Reader α) : Reader (List α) :=
  inBrackets (list item)

/-- Such a list, if a bracket comes next. -/
def bracketed? {α : Type} (item : Reader α) : Reader (Option (List α)) := do
  if ← hasMark "(" then return some (← bracketed item) else return none

def manyLoop {α : Type} (item : Reader (Option α)) : Nat → Reader (List α)
  | 0     => return []
  | n + 1 => do
    match ← item with
    | some x => return x :: (← manyLoop item n)
    | none => return []

/-- Items one after another, until there is none. -/
def many {α : Type} (item : Reader (Option α)) : Reader (List α) := do
  manyLoop item (← get).length

/-- A result together with the text it is read from. -/
def withText {α : Type} (r : Reader α) : Reader (α × String) := do
  let before ← get
  let x ← r
  let taken := before.take (before.length - (← get).length)
  return (x, .ofList (Numeral.bare (taken.flatMap (·.text))))

end Reader

end RecordLayer.Store
