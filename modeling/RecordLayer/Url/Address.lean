import RecordLayer.Text.Blank
import RecordLayer.Text.Digits
import RecordLayer.Text.Mark

/-!
# URLs — Address

The addresses of version 6 of the internet protocol: eight groups of sixteen bits.  In writing a
group has up to four hexadecimal digits and colons stand between the groups; two colons stand,
once, for one or more groups of zeros; the last two groups may be written as four decimal
numbers with points.
-/

namespace RecordLayer.Url
open Text

structure Address where
  groups : List Nat
  eight : groups.length = 8
deriving DecidableEq

namespace Address

def ofGroups? (groups : List Nat) : Option Address :=
  if h : groups.length = 8 then some ⟨groups, h⟩ else none

/-! ### Reading -/

def group? (s : List Char) : Option Nat :=
  if s.isEmpty || 4 < s.length then none else numberIn? 16 s

/-- A number below 256 without needless zeros. -/
def octet? (s : List Char) : Option Nat := do
  let n ← natural? s
  if n < 256 && (s.length == 1 || s.head? != some '0') then some n else none

/-- The two groups of four decimal numbers. -/
def dotted? (s : List Char) : Option (List Nat) :=
  match (cutAt '.' s).mapM octet? with
  | some [a, b, c, d] => some [a * 256 + b, c * 256 + d]
  | _ => none

/-- Groups between colons; the last of the address may be dotted. -/
def groupList? (closing : Bool) : List (List Char) → Option (List Nat)
  | [] => some []
  | [s] => if closing && s.contains '.' then dotted? s else (group? s).map ([·])
  | s :: rest => do
    let group ← group? s
    let groups ← groupList? closing rest
    some (group :: groups)

def groups? (closing : Bool) (s : List Char) : Option (List Nat) :=
  if s.isEmpty then some [] else groupList? closing (cutAt ':' s)

def ofText? (s : List Char) : Option Address :=
  match cutFirst? [':', ':'] s with
  | some (before, after) => do
    let before ← groups? false before
    let after ← groups? true after
    let missing := 8 - (before.length + after.length)
    if missing = 0 then none else ofGroups? (before ++ List.replicate missing 0 ++ after)
  | none => (groups? true s).bind ofGroups?

/-! ### Writing -/

/-- Where the longest run of zeros begins, and its length; the first of several. -/
def longestZeros : List Nat → Nat × Nat
  | [] => (0, 0)
  | group :: groups =>
    let (start, length) := longestZeros groups
    let here := ((group :: groups).takeWhile (· == 0)).length
    if length ≤ here then (0, here) else (start + 1, length)

def withColons (groups : List Nat) : List Char :=
  joined [':'] (groups.map (Nat.toDigits 16))

/-- The longest run of at least two zeros is left out. -/
def render (a : Address) : List Char :=
  let (start, length) := longestZeros a.groups
  if length < 2 then withColons a.groups
  else withColons (a.groups.take start) ++ ':' :: ':' ::
    withColons (a.groups.drop (start + length))

end Address

end RecordLayer.Url
