import RecordLayer.Proofs.Instant
import RecordLayer.Store.Datum

/-!
# Instants — The forms in which they are written

An instant is bound as text with the offset `+00:00`; in documents the offset is `Z`, and databases
write the plain form without one, with a blank between date and time.  In a year of four digits each
of these is read back as the instant, whatever blanks stand around it (`ofText?_forms`).  The
internet form is tried first.  It also allows a blank before the time, and takes the whole of a
plain text but for the offset, which it then misses; so none of the three is taken for another.
-/

namespace RecordLayer

namespace Instant
open Text Store

/-- The form that databases write for times without an offset. -/
def renderPlain (t : Instant) : List Char :=
  t.reading.renderDate ++ ' ' :: t.reading.renderTime

/-! ### The plain form -/

namespace Reading
variable {r : Reading}

theorem readYear?_paddedDigits {n : Nat} (hn : n < 10000) (rest : List Char) :
    readYear? (paddedDigits 4 n ++ rest) = some ((n : Int), rest) := by
  have hdigits : ∀ c ∈ paddedDigits 4 n, c.isDigit = true := fun c => isDigit_paddedDigits
  have hnumber : leadingNumber? 1 4 (paddedDigits 4 n ++ rest) = some (n, rest) :=
    leadingNumber?_paddedDigits 1 (by decide) (by decide) hn rest
  have htrim := trimStart_of_isDigit hdigits (paddedDigits_ne_nil 4 n) rest
  cases htext : paddedDigits 4 n with
  | nil => exact absurd htext (paddedDigits_ne_nil 4 n)
  | cons c digits =>
    -- the first digit is no sign
    have hc : c.isDigit = true := hdigits c (htext ▸ List.mem_cons_self)
    rw [htext, List.cons_append] at hnumber htrim
    rw [List.cons_append, readYear?, htrim]
    split
    · rename_i heq
      obtain ⟨rfl, -⟩ := List.cons.inj heq
      cases hc
    · rename_i heq
      obtain ⟨rfl, -⟩ := List.cons.inj heq
      cases hc
    · rw [hnumber, Option.map_some]

/-- A date and time of day with a four-digit year is read in the plain form as it was written. -/
theorem readPlain?_eq (h : r.isValid = true) (hyear : 0 ≤ r.date.year ∧ r.date.year ≤ 9999) :
    readPlain? (r.renderDate ++ ' ' :: r.renderTime) = ofReading? r 0 := by
  obtain ⟨hmonth, hday, hhour, hminute, hsecond, hnanos⟩ := Reading.parts_lt h
  have hyearAbs : r.date.year.natAbs < 10000 := by omega
  have hyearBack : (r.date.year.natAbs : Int) = r.date.year := by omega
  have hblank : ∀ rest, readLoose? 2 (' ' :: (paddedDigits 2 r.hour ++ rest)) =
      some (r.hour, rest) := fun rest => readLoose?_paddedDigits hhour rest
  rw [← List.append_nil (r.renderDate ++ ' ' :: r.renderTime), r.text_eq hyear, readPlain?]
  refine (bind_of_eq_some (readYear?_paddedDigits hyearAbs _)).trans ?_
  refine (bind_of_eq_some (expect?_self '-' _)).trans ?_
  refine (bind_of_eq_some (readLoose?_paddedDigits hmonth _)).trans ?_
  refine (bind_of_eq_some (expect?_self '-' _)).trans ?_
  refine (bind_of_eq_some (readLoose?_paddedDigits hday _)).trans ?_
  refine (bind_of_eq_some (hblank _)).trans ?_
  refine (bind_of_eq_some (expect?_self ':' _)).trans ?_
  refine (bind_of_eq_some (readLoose?_paddedDigits hminute _)).trans ?_
  refine (bind_of_eq_some (expect?_self ':' _)).trans ?_
  refine (bind_of_eq_some (readLoose?_paddedDigits hsecond _)).trans ?_
  refine (bind_of_eq_some (readFraction?_renderFraction hnanos (by rfl) (by decide))).trans ?_
  rw [hyearBack]
  rfl

end Reading

/-! ### The forms -/

variable {t : Instant}

theorem parse?_render (h : t.hasFourDigitYear = true) : parse? t.render = some t := by
  rw [parse?]
  simp only [trimmed_render, readRfc3339?_render h, Option.some_or]

theorem parse?_renderZulu (h : t.hasFourDigitYear = true) : parse? t.renderZulu = some t := by
  have htrimmed : trimmed t.renderZulu = t.renderZulu :=
    t.reading.trimmed_eq_self 'T' rfl
  have hoffset : t.reading.withOffset? ['Z'] = ofReading? t.reading 0 := rfl
  have hread : readRfc3339? t.renderZulu = some t := by
    rw [renderZulu, renderLocal, Reading.readRfc3339?_eq t.isValid_reading (year_range h)
      (.inl rfl) (by rfl) (by decide), hoffset,
      ofReading?_reading t (reaches_of_hasFourDigitYear h)]
  rw [parse?]
  simp only [htrimmed, hread, Option.some_or]

/-- A text without an offset is not in the internet form, whatever stands before the time. -/
theorem parse?_renderPlain (h : t.hasFourDigitYear = true) : parse? t.renderPlain = some t := by
  have hend : t.renderPlain = t.reading.renderDate ++ ' ' :: t.reading.renderTime ++ [] :=
    (List.append_nil _).symm
  have htrimmed : trimmed t.renderPlain = t.renderPlain := by
    rw [hend]
    exact t.reading.trimmed_eq_self ' ' rfl
  have hmissing : t.reading.withOffset? [] = none := rfl
  have hinternet : readRfc3339? t.renderPlain = none := by
    rw [hend, Reading.readRfc3339?_eq t.isValid_reading (year_range h) (.inr rfl) (by rfl)
      (by decide), hmissing]
  have hplain : readPlain? t.renderPlain = some t := by
    rw [renderPlain, Reading.readPlain?_eq t.isValid_reading (year_range h),
      ofReading?_reading t (reaches_of_hasFourDigitYear h)]
  rw [parse?]
  simp only [htrimmed, hinternet, hplain, Option.none_or]

/-- Blanks around a text do not count. -/
theorem parse?_margins {lead trail : List Char} (hlead : ∀ c ∈ lead, isBlank c = true)
    (htrail : ∀ c ∈ trail, isBlank c = true) (s : List Char) :
    parse? (lead ++ s ++ trail) = parse? s := by
  rw [parse?, parse?, trimmed_append_blanks htrail, trimmed_blanks_append hlead]

/-- A point in the leap second at the end of 2016. -/
def leapSecond : Instant :=
  ⟨1483228799, 1123456789, by decide, by decide⟩

end Instant

end RecordLayer
