import RecordLayer.NameMap
import RecordLayer.Text.Mark
import RecordLayer.Value

/-!
# Rules

Field rules are written as a list, `required,gte=3,lte=64`: names, some with a parameter behind
an equals sign.  A rulebook gives each name its check, and a value breaks a list at the first
item whose check it fails.  Null answers to `required` alone, and a name that the rulebook does
not know is passed over (and reported).
-/

namespace RecordLayer

/-- A check of a value against the rule's parameter, if it has one. -/
abbrev Check := Value → Option String → Bool

/-- The checks by name. -/
abbrev Rulebook := NameMap Check

/-- An item of a rule list. -/
structure RuleItem where
  name : String
  param : Option String
deriving DecidableEq, Repr

namespace RuleItem
open Text

/-- The item written as a name, or as a name and a parameter with an equals sign between. -/
def ofText (s : List Char) : RuleItem :=
  match cutFirst? ['='] s with
  | some (name, param) => ⟨.ofList (trimmed name), some (.ofList (trimmed param))⟩
  | none => ⟨.ofList s, none⟩

/-- The items of a rule list, in order. -/
def listOf (rules : String) : List RuleItem :=
  (Text.listItems rules.toList).map ofText

/-- How a broken rule is reported. -/
def report (item : RuleItem) : String :=
  match item.param with
  | some param => item.name ++ ": " ++ param
  | none => item.name

end RuleItem

/-- What a value makes of one item. -/
inductive Verdict where
  | passed
  | unknown
  | broken
deriving DecidableEq, Repr

namespace Rulebook

def judge (book : Rulebook) (v : Value) (item : RuleItem) : Verdict :=
  if v.isNull && item.name != "required" then .passed
  else match book.get? item.name with
    | none => .unknown
    | some check => if check v item.param then .passed else .broken

/-- The first item that the value breaks. -/
def firstBroken? (book : Rulebook) (v : Value) (items : List RuleItem) : Option RuleItem :=
  items.find? fun item => book.judge v item == .broken

/-- The report of the first rule that a value breaks. -/
def check (book : Rulebook) (rules : String) (v : Value) : Option String :=
  (book.firstBroken? v (RuleItem.listOf rules)).map RuleItem.report

/-- The names met on the way, up to the first broken rule, that the book does not know. -/
def unknownNames (book : Rulebook) (rules : String) (v : Value) : List String :=
  (((RuleItem.listOf rules).takeWhile fun item => book.judge v item != .broken).filter
    fun item => book.judge v item == .unknown).map (·.name)

/-- The rulebook's names in braces, as it shows itself. -/
def render (book : Rulebook) : String :=
  "Validator \x7b rules: [" ++
    joinWith ", " (book.names.map fun name => "\"" ++ name ++ "\"") ++ "] \x7d"

end Rulebook

end RecordLayer
