import RecordLayer.Store.Command
import RecordLayer.Store.Reader

/-!
# Store — Reader — Expression

Reading expressions.  Operators bind in nine levels, from `OR` to `||`; those of one level are
taken from the left.
-/

namespace RecordLayer.Store.Reader

/-- A whole number, as a double if 64 bits have no room for it. -/
def wholeNumber (negative : Bool) (n : Nat) : Datum :=
  match Numeral.unsigned? negative (Nat.toDigits 10 n) with
  | some (n, _) => n.datum
  | none => .null

/-- An operator that stands between two expressions: its level, how many lexemes write it, and
what it makes of them. -/
structure Operator where
  level : Nat
  size : Nat
  apply : Expr → Expr → Expr

/-- The operator that a mark writes. -/
def markOperator? : String → Option Operator
  | "="  => some ⟨4, 1, .compared .equal⟩
  | "==" => some ⟨4, 1, .compared .equal⟩
  | "<>" => some ⟨4, 1, .compared .differs⟩
  | "!=" => some ⟨4, 1, .compared .differs⟩
  | "<"  => some ⟨5, 1, .compared .less⟩
  | "<=" => some ⟨5, 1, .compared .lessOrEqual⟩
  | ">"  => some ⟨5, 1, .compared .greater⟩
  | ">=" => some ⟨5, 1, .compared .greaterOrEqual⟩
  | "+"  => some ⟨7, 1, .combined .plus⟩
  | "-"  => some ⟨7, 1, .combined .minus⟩
  | "*"  => some ⟨8, 1, .combined .times⟩
  | "||" => some ⟨9, 1, .combined .joined⟩
  | _    => none

/-- The operator that words write. -/
def wordOperator? (s : String) (rest : List Lexeme) : Option Operator :=
  let followed (word : String) : Bool := rest.head?.any (isWord word)
  if sameName s "or" then some ⟨1, 1, .either⟩
  else if sameName s "and" then some ⟨2, 1, .both⟩
  else if sameName s "is" then
    if followed "not" then some ⟨4, 2, .compared .isNot⟩ else some ⟨4, 1, .compared .is⟩
  else if sameName s "like" then some ⟨4, 1, .compared .like⟩
  else if sameName s "not" ∧ followed "like" then some ⟨4, 2, .compared .notLike⟩
  else none

/-- The operator that comes next. -/
def operator? : Reader (Option Operator) := do
  match ← ahead with
  | .mark s :: _    => return markOperator? s
  | .name s :: rest => return wordOperator? s rest
  | _               => return none

/-- The arguments of `COALESCE`, of which there are at least two. -/
def firstOfAll : List Expr → Option Expr
  | [a, b]    => some (.firstOf a b)
  | a :: rest => (firstOfAll rest).map (.firstOf a)
  | []        => none

/-- The value of a function of some arguments. -/
def applied (function : String) (arguments : List Expr) : Expr :=
  let is (name : String) : Bool := sameName function name
  let known : Option Expr :=
    if is "coalesce" then firstOfAll arguments
    else match arguments with
      | [] => if is "count" then some .count else none
      | [e] =>
        if is "count" then some (.countOf e)
        else if is "max" then some (.greatest e)
        else if is "min" then some (.least e)
        else none
      | [a, b] => if is "ifnull" then some (.firstOf a b) else none
      | _ => none
  known.getD (.unknown function)

/-- A function, its name and the bracket behind it being read. -/
def function (argument : Reader Expr) (name : String) : Reader Expr := do
  if ← skipMark "*" then
    mark ")"
    return applied name []
  else if ← skipMark ")" then return applied name []
  else
    let arguments ← list argument
    mark ")"
    return applied name arguments

/-- A column, given its name or that of its table. -/
def column (first : String) (quoted : Bool) : Reader Expr := do
  if ← skipMark "." then
    let second ← name
    if ← skipMark "." then return .column (some second) (← name) false
    else return .column (some first) second false
  else return .column none first quoted

/-- An expression without operators between its parts. -/
def primary (inner : Reader Expr) : Reader Expr := do
  match ← next with
  | .whole n               => return .literal (wholeNumber false n)
  | .value d               => return .literal d
  | .text s                => return .literal (.text s)
  | .placeholder p         => return .bound p
  | .quotedName double s   => column s double
  | .mark "("              => do
    let e ← inner
    mark ")"
    return e
  | .name s =>
    if sameName s "null" then return .literal .null
    else
      guard !(isReserved s)
      if ← skipMark "(" then function inner s
      else if sameName s "true" then return .literal (.int 1)
      else if sameName s "false" then return .literal (.int 0)
      else column s false
  | _ => failure

/-- What begins an expression, with the signs before it. -/
def leading (inner : Nat → Reader Expr) : Reader Expr := do
  match ← ahead with
  | .mark "-" :: .whole n :: _ => pass 2; return .literal (wholeNumber true n)
  | .mark "-" :: _             => pass 1; return .negated (← inner 10)
  | .mark "+" :: _             => pass 1; inner 10
  | .name s :: _ =>
    if sameName s "not" then
      pass 1
      return .opposite (← inner 3)
    else primary (inner 0)
  | _ => primary (inner 0)

/-- An expression of operators from a level up, in at most so many steps; its left end may be
read already. -/
def climb : Nat → Nat → Option Expr → Reader Expr
  | 0, _, _ => failure
  | n + 1, level, none => do
    let left ← leading fun level => climb n level none
    climb n level (some left)
  | n + 1, level, some left => do
    match ← operator? with
    | none => return left
    | some o =>
      if o.level < level then return left
      else
        pass o.size
        let right ← climb n (o.level + 1) none
        climb n level (some (o.apply left right))

def expression : Reader Expr := do
  climb (3 * (← get).length + 3) 0 none

end RecordLayer.Store.Reader
