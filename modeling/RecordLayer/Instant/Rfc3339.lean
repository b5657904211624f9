import RecordLayer.Instant
import RecordLayer.Magnitude
import RecordLayer.Text.Digits

/-!
# Instants — RFC 3339

The internet form of a point in time, `2024-03-01T10:20:30.5+00:00`.  Writing uses the fewest
of no, three, six and nine fraction digits that lose nothing; reading takes any number of them
and any offset below a day.
-/

namespace RecordLayer.Instant
open Text

/-- A fraction of a second in the fewest of no, three, six and nine digits. -/
def renderFraction (nanos : Nat) : List Char :=
  if nanos = 0 then []
  else if nanos % 1000000 = 0 then '.' :: paddedDigits 3 (nanos / 1000000)
  else if nanos % 1000 = 0 then '.' :: paddedDigits 6 (nanos / 1000)
  else '.' :: paddedDigits 9 nanos

/-- A year in four digits; one that needs more, or lies before year 0, carries its sign. -/
def renderYear (year : Int) : List Char :=
  if 0 ≤ year ∧ year ≤ 9999 then paddedDigits 4 year.natAbs
  else (if year < 0 then '-' else '+') :: paddedDigits 4 year.natAbs

def Reading.renderDate (r : Reading) : List Char :=
  renderYear r.date.year ++ '-' :: paddedDigits 2 r.date.month ++
    '-' :: paddedDigits 2 r.date.day

def Reading.renderTime (r : Reading) : List Char :=
  paddedDigits 2 r.hour ++ ':' :: paddedDigits 2 r.minute ++
    ':' :: paddedDigits 2 r.second ++ renderFraction r.nanos

/-- An instant in universal time, before its offset is written. -/
def renderLocal (t : Instant) : List Char :=
  t.reading.renderDate ++ 'T' :: t.reading.renderTime

/-- The form that is stored: offset `+00:00`. -/
def render (t : Instant) : List Char :=
  t.renderLocal ++ "+00:00".toList

/-- The form in documents: offset `Z`. -/
def renderZulu (t : Instant) : List Char :=
  t.renderLocal ++ ['Z']

instance : ToString Instant := ⟨fun t => .ofList t.render⟩

/-- The given character, and what follows it. -/
def expect? (c : Char) : List Char → Option (List Char)
  | d :: s => if c == d then some s else none
  | [] => none

/-- An optional fraction of a second in nanoseconds; digits past the ninth are dropped. -/
def readFraction? : List Char → Option (Nat × List Char)
  | '.' :: s => do
    let (digits, _) ← leadingNumber? 1 9 s
    let width := ((s.take 9).takeWhile Char.isDigit).length
    some (digits * tenTo (9 - width), s.dropWhile Char.isDigit)
  | s => some (0, s)

/-- An offset from universal time in minutes. -/
def readOffset? : List Char → Option (Int × List Char)
  | 'Z' :: s | 'z' :: s => some (0, s)
  | sign :: s => do
    guard (sign == '+' || sign == '-' || sign == '\u2212')
    let (hours, s) ← leadingNumber? 2 2 s
    let s ← expect? ':' s
    let (minutes, s) ← leadingNumber? 2 2 s
    guard (hours < 24 && minutes < 60)
    let offset : Int := hours * 60 + minutes
    some (if sign == '+' then offset else -offset, s)
  | [] => none

/-- Reads a date and time of fixed width, with its offset. -/
def readRfc3339? (s : List Char) : Option Instant := do
  let (year, s) ← leadingNumber? 4 4 s
  let s ← expect? '-' s
  let (month, s) ← leadingNumber? 2 2 s
  let s ← expect? '-' s
  let (day, s) ← leadingNumber? 2 2 s
  let s ← (expect? 'T' s <|> expect? 't' s <|> expect? ' ' s)
  let (hour, s) ← leadingNumber? 2 2 s
  let s ← expect? ':' s
  let (minute, s) ← leadingNumber? 2 2 s
  let s ← expect? ':' s
  let (second, s) ← leadingNumber? 2 2 s
  let (nanos, s) ← readFraction? s
  let (offset, s) ← readOffset? s
  guard s.isEmpty
  ofReading? ⟨⟨year, month, day⟩, hour, minute, second, nanos⟩ offset

end RecordLayer.Instant
