import RecordLayer.Magnitude
import RecordLayer.Text.Digits
import RecordLayer.Text.Mark

/-!
# Migrations — File name

Migration files are named `<number>.<name>.<up|down>.sql`.  The number is written in digits and
fits in 64 bits with sign; the name is anything but empty and may itself have points.
-/

namespace RecordLayer.Migration
open Text

inductive Direction where
  | up
  | down
deriving DecidableEq, Repr

def Direction.name : Direction → String
  | up   => "up"
  | down => "down"

/-- What a migration file's name says. -/
structure FileName where
  number : Int64
  name : String
  direction : Direction
deriving DecidableEq

namespace FileName

def direction? (s : List Char) : Option Direction :=
  if s = "up".toList then some .up
  else if s = "down".toList then some .down
  else none

/-- The number that digits stand for, if it fits in 64 bits with sign. -/
def number? (s : List Char) : Option Int64 :=
  (natural? s).bind fun n => wide? n

/-- What a file name says, if it is that of a migration. -/
def ofChars? (s : List Char) : Option FileName := do
  let stem ← beforeMark? ".sql".toList s
  let (rest, direction) ← cutLast? ['.'] stem
  let direction ← direction? direction
  let (number, name) ← cutFirst? ['.'] rest
  if name.isEmpty then none
  else
    let number ← number? number
    some ⟨number, .ofList name, direction⟩

def ofText? (s : String) : Option FileName :=
  ofChars? s.toList

end FileName

end RecordLayer.Migration
