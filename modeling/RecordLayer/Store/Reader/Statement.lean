import RecordLayer.Store.Reader.Definition

/-!
# Store — Reader — Statement

Reading whole statements.
-/

namespace RecordLayer.Store

namespace Reader

/-! ### Queries -/

/-- One of the things that a query asks for. -/
def selected : Reader Selected := do
  match ← ahead with
  | .mark "*" :: _ => pass 1; return .all none
  | [table, .mark ".", .mark "*"] =>
    match nameOf? table with
    | some table => pass 3; return .all (some table)
    | none => failure
  | _ =>
    let (e, text) ← withText expression
    return .value e (← label?) text

def criterion : Reader Criterion := do
  let e ← expression
  return ⟨e, ← descending⟩

def ordering : Reader (List Criterion) := do
  if ← skipWords ["order", "by"] then list criterion else return []

def condition : Reader (Option Expr) := do
  if ← skipWord "where" then return some (← expression) else return none

def source : Reader Source := do
  let table ← tableName
  return ⟨table, ← label?⟩

def select : Reader Command := do
  let wanted ← list selected
  let source ← if ← skipWord "from" then some <$> source else pure none
  let condition ← condition
  return .select wanted source condition (← ordering)

/-! ### Changes -/

/-- What a change answers. -/
def returning : Reader (List Selected) := do
  if ← skipWord "returning" then list selected else return []

def insert : Reader Command := do
  word "into"
  let table ← tableName
  if ← skipWord "as" then
    let _ ← name
  let columns ← bracketed? name
  if ← skipWords ["default", "values"] then
    guard columns.isNone
    return .insert table (some []) [[]] (← returning)
  else
    word "values"
    let rows ← list (bracketed expression)
    return .insert table columns rows (← returning)

def update : Reader Command := do
  let table ← tableName
  word "set"
  let changes ← list do
    let column ← name
    if !(← skipMark "==") then mark "="
    return (column, ← expression)
  let condition ← condition
  return .update table changes condition (← returning)

def delete : Reader Command := do
  word "from"
  let table ← tableName
  let condition ← condition
  return .delete table condition (← returning)

/-! ### Definitions -/

def create : Reader Command := do
  if ← skipWord "table" then createTable
  else if ← skipWords ["unique", "index"] then createIndex true
  else
    word "index"
    createIndex false

def drop : Reader Command := do
  let isTable ← skipWord "table"
  if !isTable then word "index"
  let ifPresent ← skipWords ["if", "exists"]
  let target ← tableName
  return if isTable then .dropTable ifPresent target else .dropIndex ifPresent target

def pragma : Reader Command := do
  word "foreign_keys"
  mark "="
  if ← skipWord "on" then return .foreignKeys true
  else
    word "off"
    return .foreignKeys false

def command : Reader Command := do
  if ← skipWord "select" then select
  else if ← skipWord "insert" then insert
  else if ← skipWord "update" then update
  else if ← skipWord "delete" then delete
  else if ← skipWord "create" then create
  else if ← skipWord "drop" then drop
  else
    word "pragma"
    pragma

end Reader

/-- The command that lexemes spell. -/
def Command.ofLexemes? (ls : List Lexed) : Option Command :=
  (do
    let c ← Reader.command
    Reader.finished
    return c : Reader Command).run' ls

end RecordLayer.Store
