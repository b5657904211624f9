import RecordLayer.Store.Reader.Expression

/-!
# Store — Reader — Definition

Reading the definitions of tables and indexes: columns with their types and what is said of
them, and what is said of the table.
-/

namespace RecordLayer.Store.Reader

/-! ### Types -/

/-- A size in a type. -/
def typeSize : Reader String := do
  let sign := if ← skipMark "-" then "-" else ""
  let _ ← skipMark "+"
  match ← next with
  | .whole n => return sign ++ toString n
  | _ => failure

/-- The words of a type, with its sizes in brackets as one of them. -/
def typeWords : Reader (List String) := do
  let words ← many name?
  if words.isEmpty then return []
  else match ← bracketed? typeSize with
    | some sizes => return words ++ ["(" ++ joinWith "," sizes ++ ")"]
    | none => return words

/-- The type's name contains a mark. -/
def typeHas (typeName : List Char) (mark : String) : Bool :=
  Text.hasMark mark.toList typeName

/-- The class of a type given by its words. -/
def affinityOf (words : List String) : Affinity :=
  let typeName := Text.folded (joinWith " " words).toList
  if typeHas typeName "int" then .numeric
  else if ["char", "clob", "text"].any (typeHas typeName) then .text
  else if typeName.isEmpty || typeHas typeName "blob" then .none
  else if ["real", "floa", "doub"].any (typeHas typeName) then .real
  else .numeric

/-- The room that a value of a type is taken to need: a fourth of the size that is given, twenty
characters if none is. -/
def roomOf (words : List String) : Nat :=
  let typeName := Text.folded (joinWith " " words).toList
  let sized (mark : String) : Option (List Char) := (Text.cutLast? mark.toList typeName).map (·.2)
  let size (s : List Char) : Nat :=
    Text.numberOf ((s.dropWhile (!·.isDigit)).takeWhile Char.isDigit) / 4 + 1
  if words.isEmpty || (affinityOf words).isNumeric then 1
  else match sized "char" with
    | some rest => min 255 (size rest)
    | none => match sized "blob(" with
      | some rest => min 255 (size rest)
      | none => 5

/-! ### Foreign keys -/

/-- What a deleted parent does to the rows that refer to it. -/
def deletion : Reader OnDelete := do
  if ← skipWord "cascade" then return .cascade
  else if ← skipWords ["set", "null"] then return .setNull
  else if ← skipWords ["no", "action"] then return .refuse
  else
    word "restrict"
    return .forbid

/-- The actions of a foreign key; those on updates are passed over. -/
def actions : Reader OnDelete := do
  let found ← many do
    if ← skipWord "on" then
      if ← skipWord "delete" then return some (some (← deletion))
      else
        word "update"
        let _ ← deletion
        return some none
    else return none
  return (found.filterMap id).getLast?.getD .refuse

/-- `REFERENCES table (column)`, the first word being read. -/
def reference (column : String) : Reader ForeignKey := do
  let parent ← name
  match ← bracketed? name with
  | none => return ⟨column, parent, none, ← actions⟩
  | some [parentColumn] => return ⟨column, parent, some parentColumn, ← actions⟩
  | some _ => failure

/-! ### Columns -/

/-- What is said of a column behind its type. -/
inductive ColumnFact where
  | key (descending remembers : Bool)
  | notNull
  | nullable
  | unique
  | default (e : Expr)
  | check (e : Expr)
  | foreign (key : ForeignKey)

namespace ColumnFact

def isKey : ColumnFact → Bool
  | key _ _ => true
  | _       => false

def remembers : ColumnFact → Bool
  | key _ remembers => remembers
  | _               => false

def isNotNull : ColumnFact → Bool
  | notNull => true
  | _       => false

def default? : ColumnFact → Option Expr
  | default e => some e
  | _         => none

def check? : ColumnFact → Option Expr
  | check e => some e
  | _       => none

def foreign? : ColumnFact → Option ForeignKey
  | foreign k => some k
  | _         => none

end ColumnFact

/-- A default: an expression in brackets, a value, or a word, which is a text. -/
def defaultValue : Reader Expr := do
  match ← ahead with
  | .mark "(" :: _ => inBrackets expression
  | .name s :: _ =>
    if ["null", "true", "false"].any (sameName s) then primary failure
    else return .literal (.text (← name))
  | .quotedName _ s :: _ => pass 1; return .literal (.text s)
  | _ =>
    match ← leading fun _ => primary failure with
    | .literal d           => return .literal d
    | .negated (.literal d) => return .negated (.literal d)
    | _ => failure

/-- Passes over the direction of a key. -/
def descending : Reader Bool := do
  if ← skipWord "desc" then return true
  else
    let _ ← skipWord "asc"
    return false

def columnFact (column : String) : Reader (Option ColumnFact) := do
  if ← skipWord "constraint" then
    let _ ← name
  if ← skipWords ["primary", "key"] then
    let descending ← descending
    return some (.key descending (← skipWord "autoincrement"))
  else if ← skipWords ["not", "null"] then return some .notNull
  else if ← skipWord "null" then return some .nullable
  else if ← skipWord "unique" then return some .unique
  else if ← skipWord "default" then return some (.default (← defaultValue))
  else if ← skipWord "check" then return some (.check (← inBrackets expression))
  else if ← skipWord "references" then return some (.foreign (← reference column))
  else return none

/-! ### Tables -/

/-- One part of a table's definition. -/
inductive TablePart where
  | column (name : String) (typeWords : List String) (facts : List ColumnFact)
  | key (parts : List IndexPart) (remembers : Bool)
  | unique (parts : List IndexPart)
  | check (e : Expr)
  | foreign (key : ForeignKey)

/-- A column of an index. -/
def indexPart : Reader IndexPart := do
  let column ← name
  return ⟨column, ← descending⟩

def tablePart : Reader TablePart := do
  let named ← skipWord "constraint"
  if named then
    let _ ← name
  if ← skipWords ["primary", "key"] then
    inBrackets do
      let parts ← list indexPart
      return .key parts (← skipWord "autoincrement")
  else if ← skipWord "unique" then return .unique (← bracketed indexPart)
  else if ← skipWord "check" then return .check (← inBrackets expression)
  else if ← skipWords ["foreign", "key"] then
    match ← bracketed name with
    | [column] =>
      word "references"
      return .foreign (← reference column)
    | _ => failure
  else
    guard !named
    let column ← name
    let typeWords ← typeWords
    return .column column typeWords (← many (columnFact column))

namespace TablePart

def column? : TablePart → Option Column
  | column name typeWords facts => some {
      name := name
      affinity := affinityOf typeWords
      room := roomOf typeWords
      notNull := facts.any ColumnFact.isNotNull
      default := (facts.findSome? ColumnFact.default?).getD (.literal .null) }
  | _ => none

/-- The primary key that a part declares: its columns, and whether it may be the number of the
rows. -/
def key? : TablePart → Option (List String × Bool)
  | column name _ facts =>
    if facts.any ColumnFact.isKey then
      some ([name], !facts.any fun | .key descending _ => descending | _ => false)
    else none
  | key parts _ => some (parts.map (·.column), true)
  | _ => none

/-- The part makes a column a whole number. -/
def makesInteger (name : String) : TablePart → Bool
  | column other [word] _ => sameName name other && sameName word "integer"
  | _ => false

def remembers : TablePart → Bool
  | column _ _ facts => facts.any ColumnFact.remembers
  | key _ remembers  => remembers
  | _                => false

/-- The indexes of a part; `keyed` says that the primary key is the number of the rows. -/
def indexes (keyed : Bool) : TablePart → List Index
  | column name _ facts => facts.flatMap fun
    | .unique => [⟨none, [⟨name, false⟩], true, false⟩]
    | .key descending _ =>
      if keyed then [] else [⟨none, [⟨name, descending⟩], true, true⟩]
    | _ => []
  | key parts _  => if keyed then [] else [⟨none, parts, true, true⟩]
  | unique parts => [⟨none, parts, true, false⟩]
  | check _ | foreign _ => []

def foreigns : TablePart → List ForeignKey
  | column _ _ facts => facts.filterMap ColumnFact.foreign?
  | foreign k => [k]
  | _ => []

def checks : TablePart → List Expr
  | column _ _ facts => facts.filterMap ColumnFact.check?
  | check e => [e]
  | _ => []

/-- The integer key of a table: its primary key, if that is one column of whole numbers. -/
def integerKey? (parts : List TablePart) : Option String :=
  match parts.findSome? key? with
  | some ([name], true) => if parts.any (makesInteger name) then some name else none
  | _ => none

end TablePart

/-- Indexes in the opposite order, without those whose columns an earlier one has. -/
def newestFirst (indexes : List Index) : List Index :=
  indexes.foldl (fun kept i => if kept.any (·.columns == i.columns) then kept else i :: kept) []

def createTable : Reader Command := do
  let ifAbsent ← skipWords ["if", "not", "exists"]
  let tableName ← tableName
  let parts ← bracketed tablePart
  let key := TablePart.integerKey? parts
  let remembers := parts.any TablePart.remembers
  guard ((parts.filterMap TablePart.key?).length ≤ 1)
  guard (key.isSome || !remembers)
  return .createTable ifAbsent {
    name := tableName
    columns := parts.filterMap TablePart.column?
    key := key
    indexes := newestFirst (parts.flatMap (TablePart.indexes key.isSome))
    foreigns := parts.flatMap TablePart.foreigns
    checks := parts.flatMap TablePart.checks
    rows := []
    remembers := remembers
    highest := 0 }

def createIndex (unique : Bool) : Reader Command := do
  let ifAbsent ← skipWords ["if", "not", "exists"]
  let indexName ← tableName
  word "on"
  let table ← name
  return .createIndex ifAbsent table ⟨some indexName, ← bracketed indexPart, unique, false⟩

end RecordLayer.Store.Reader
