import RecordLayer.Text.Mark

/-!
# Text — Scan

Reading a text from its head.  A scan takes characters away or fails; the forms with `skip`
take nothing if what they look for does not come next.
-/

namespace RecordLayer.Text

/-- Reads from the head of a text, or fails. -/
abbrev Scan := StateT (List Char) Option

namespace Scan

/-- The next character, which stays where it is. -/
def peek : Scan (Option Char) := do
  return (← get).head?

def next : Scan Char := do
  match ← get with
  | c :: s => set s; return c
  | [] => failure

def char (c : Char) : Scan Unit := do
  guard ((← next) == c)

/-- Passes over a mark if it comes next. -/
def skip (mark : List Char) : Scan Bool := do
  match afterMark? mark (← get) with
  | some s => set s; return true
  | none => return false

/-- The characters up to the first that does not satisfy `p`. -/
def run (p : Char → Bool) : Scan (List Char) := do
  let s ← get
  set (s.dropWhile p)
  return s.takeWhile p

def manyLoop {α : Type} (item : Scan (Option α)) : Nat → Scan (List α)
  | 0     => return []
  | n + 1 => do
    match ← item with
    | some x => return x :: (← manyLoop item n)
    | none => return []

/-- Items one after another, until there is none; each of them takes a character. -/
def many {α : Type} (item : Scan (Option α)) : Scan (List α) := do
  manyLoop item ((← get).length + 1)

/-- The result of a scan that takes the whole text. -/
def all? {α : Type} (scan : Scan α) (s : List Char) : Option α :=
  match scan s with
  | some (x, []) => some x
  | _            => none

end Scan

end RecordLayer.Text
