import RecordLayer.Calendar

/-!
# Instants

Points in time to the nanosecond, counted from the start of 1970 in universal time.  A leap
second shares the number of the second before it and has a billion nanoseconds or more, so it
can only follow the last second of a minute.
-/

namespace RecordLayer

structure Instant where
  seconds : Int
  nanos : Nat
  nanos_lt : nanos < 2000000000
  leap_ends_minute : 1000000000 ≤ nanos → seconds % 60 = 59
deriving DecidableEq

namespace Instant

instance : Inhabited Instant := ⟨⟨0, 0, by decide, by decide⟩⟩

/-- The instant that is so many nanoseconds from the start of 1970. -/
def ofNanos (n : Int) : Instant :=
  ⟨n / 1000000000, (n % 1000000000).toNat, by omega, by omega⟩

/-- A date and a time of day as they are written; second 60 is a leap second. -/
structure Reading where
  date : Date
  hour : Nat
  minute : Nat
  second : Nat
  nanos : Nat
deriving DecidableEq, Repr

def Reading.isValid (r : Reading) : Bool :=
  r.date.isValid && r.hour < 24 && r.minute < 60 && r.second ≤ 60 && r.nanos < 1000000000

/-- A year in which instants can lie. -/
def reaches (year : Int) : Bool :=
  -262143 ≤ year && year ≤ 262142

/-- The instant of a date and time that is `offset` minutes ahead of universal time; it has to lie
in reach by either. -/
def ofReading? (r : Reading) (offset : Int) : Option Instant :=
  let minutes : Int := r.date.toDays * 1440 + r.hour * 60 + r.minute - offset
  if hn : (r.isValid && reaches r.date.year && reaches (Date.ofDays (minutes / 1440)).year) &&
      r.nanos < 1000000000 then
    have hlt : r.nanos < 1000000000 := by
      simp only [Bool.and_eq_true, decide_eq_true_eq] at hn
      exact hn.2
    if r.second = 60 then
      some ⟨minutes * 60 + 59, r.nanos + 1000000000, by omega, by omega⟩
    else some ⟨minutes * 60 + r.second, r.nanos, by omega, by omega⟩
  else none

/-- The date and time of an instant in universal time. -/
def reading (t : Instant) : Reading where
  date := Date.ofDays (t.seconds / 86400)
  hour := (t.seconds % 86400 / 3600).toNat
  minute := (t.seconds % 3600 / 60).toNat
  second := (t.seconds % 60).toNat + t.nanos / 1000000000
  nanos := t.nanos % 1000000000

end Instant

/-- What a clock shows, from one reading to the next. -/
abbrev Clock := Nat → Instant

/-- The clock once it has been read. -/
def Clock.later (clock : Clock) : Clock :=
  fun n => clock (n + 1)

end RecordLayer
