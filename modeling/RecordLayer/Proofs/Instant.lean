import Mathlib.Data.Option.Basic
import RecordLayer.Instant.Parse
import RecordLayer.Proofs.Calendar
import RecordLayer.Proofs.Text.Numeral

/-!
# Instants that are stored as text

An instant is stored in its internet form, and a stored text is read back in one of two forms.
An instant is the one that its own date and time of day stand for (`ofReading?_reading`), leap
seconds among them, and its text is read as that instant if its year has four digits, and as
nothing otherwise (`ofText?_toString`).
-/

namespace RecordLayer.Instant
open Text

/-- The year is one of 0 to 9999, which are written in four digits without a sign. -/
def hasFourDigitYear (t : Instant) : Bool :=
  0 ≤ t.reading.date.year && t.reading.date.year ≤ 9999

theorem year_range {t : Instant} (h : t.hasFourDigitYear = true) :
    0 ≤ t.reading.date.year ∧ t.reading.date.year ≤ 9999 := by
  simpa [hasFourDigitYear] using h

/-! ### The reading of an instant -/

theorem isValid_reading (t : Instant) : t.reading.isValid = true := by
  have hdate := Date.isValid_ofDays (t.seconds / 86400)
  have hnanos := t.nanos_lt
  have hsecond : (t.seconds % 60).toNat + t.nanos / 1000000000 ≤ 60 := by
    have hleap := t.leap_ends_minute
    omega
  simp only [Reading.isValid, reading, Bool.and_eq_true]
  exact ⟨⟨⟨⟨hdate, decide_eq_true (by omega)⟩, decide_eq_true (by omega)⟩,
    decide_eq_true hsecond⟩, decide_eq_true (by omega)⟩

theorem ext_parts {s t : Instant} (hseconds : s.seconds = t.seconds) (hnanos : s.nanos = t.nanos) :
    s = t := by
  cases s
  cases t
  cases hseconds
  cases hnanos
  rfl

/-- An instant is the one that its date and time of day stand for. -/
theorem ofReading?_reading (t : Instant) (h : reaches t.reading.date.year = true) :
    ofReading? t.reading 0 = some t := by
  have hminutes : t.reading.date.toDays * 1440 + t.reading.hour * 60 + t.reading.minute - 0 =
      t.seconds / 60 := by
    simp only [reading, Date.toDays_ofDays]
    omega
  have hdays : (t.reading.date.toDays * 1440 + t.reading.hour * 60 + t.reading.minute - 0) / 1440 =
      t.seconds / 86400 := by omega
  have hyear : (Date.ofDays (t.seconds / 86400)).year = t.reading.date.year := rfl
  have hbelow : t.reading.nanos < 1000000000 := Nat.mod_lt _ (by decide)
  have hnanos := t.nanos_lt
  have hleap := t.leap_ends_minute
  unfold ofReading?
  simp only
  rw [dif_pos (by
    rw [hdays, hyear, t.isValid_reading, h, decide_eq_true hbelow]
    rfl)]
  have hsecond : t.reading.second = (t.seconds % 60).toNat + t.nanos / 1000000000 := rfl
  have hrest : t.reading.nanos = t.nanos % 1000000000 := rfl
  split
  · refine congrArg some (ext_parts ?_ ?_) <;> simp only
    · omega
    · omega
  · refine congrArg some (ext_parts ?_ ?_) <;> simp only
    · omega
    · omega

/-! ### The internet form -/

theorem readFraction?_digits {width n : Nat} (hw : 0 < width) (hw₉ : width ≤ 9)
    (hn : n < tenTo width) {rest : List Char} (hrest : EndsNumber rest) :
    readFraction? ('.' :: (paddedDigits width n ++ rest)) =
      some (n * tenTo (9 - width), rest) := by
  have hdigits : ∀ c ∈ paddedDigits width n, c.isDigit = true := fun c hc => isDigit_paddedDigits hc
  have hlen := length_paddedDigits hw hn
  have hnumber : leadingNumber? 1 9 (paddedDigits width n ++ rest) = some (n, rest) := by
    rw [leadingNumber?_append hdigits (by omega) (by omega) (.inr hrest), numberOf_paddedDigits]
  have hrun : ((paddedDigits width n ++ rest).take 9).takeWhile Char.isDigit =
      paddedDigits width n := by
    rw [List.take_append, List.take_of_length_le (by omega), List.takeWhile_append_of_pos hdigits,
      hrest.takeWhile_take, List.append_nil]
  have hdrop : (paddedDigits width n ++ rest).dropWhile Char.isDigit = rest := by
    rw [List.dropWhile_append_of_pos hdigits]
    cases rest with
    | nil => rfl
    | cons c rest =>
      have hc : c.isDigit = false := hrest
      simp [hc]
  simp only [readFraction?, hnumber, hrun, hdrop, hlen]
  rfl

/-- The fraction of a second is read as it was written. -/
theorem readFraction?_renderFraction {nanos : Nat} (h : nanos < 1000000000) {rest : List Char}
    (hrest : EndsNumber rest) (hpoint : rest.head? ≠ some '.') :
    readFraction? (renderFraction nanos ++ rest) = some (nanos, rest) := by
  have h₃ : tenTo 3 = 1000 := rfl
  have h₆ : tenTo 6 = 1000000 := rfl
  have h₉ : tenTo 9 = 1000000000 := rfl
  have h₀ : tenTo 0 = 1 := rfl
  rw [renderFraction]
  split
  · subst nanos
    cases rest with
    | nil => rfl
    | cons c rest =>
      rw [List.nil_append, readFraction?]
      rintro s ⟨⟩
      exact hpoint rfl
  · split
    · rw [List.cons_append, readFraction?_digits (by decide) (by decide) (by omega) hrest, h₆]
      congr 2
      omega
    · split
      · rw [List.cons_append, readFraction?_digits (by decide) (by decide) (by omega) hrest, h₃]
        congr 2
        omega
      · rw [List.cons_append, readFraction?_digits (by decide) (by decide) (by omega) hrest, h₀,
          Nat.mul_one]

theorem expect?_self (c : Char) (s : List Char) : expect? c (c :: s) = some s := by
  rw [expect?, beq_self_eq_true, if_pos rfl]

theorem daysInMonth_le (year : Int) (month : Nat) : Date.daysInMonth year month ≤ 31 := by
  unfold Date.daysInMonth
  split
  · split <;> decide
  all_goals decide

/-- The parts of a valid date and time of day fit their widths. -/
theorem Reading.parts_lt {r : Reading} (h : r.isValid = true) :
    r.date.month < 100 ∧ r.date.day < 100 ∧ r.hour < 100 ∧ r.minute < 100 ∧ r.second < 100 ∧
      r.nanos < 1000000000 := by
  simp only [Reading.isValid, Date.isValid, Bool.and_eq_true, decide_eq_true_eq] at h
  have hday := daysInMonth_le r.date.year r.date.month
  omega

theorem bind_of_eq_some {α β : Type} {o : Option α} {a : α} {f : α → Option β} (h : o = some a) :
    (o >>= f) = f a := by
  rw [h, Option.bind_eq_bind, Option.bind_some]

/-- The instant of a date and time of day whose offset is what is left of a text. -/
def Reading.withOffset? (r : Reading) (offset : List Char) : Option Instant := do
  let (minutes, rest) ← readOffset? offset
  guard rest.isEmpty
  ofReading? r minutes

/-- A date and time of day in digits, with a mark between them. -/
theorem Reading.text_eq (r : Reading) (hyear : 0 ≤ r.date.year ∧ r.date.year ≤ 9999)
    (mark : Char) (rest : List Char) : r.renderDate ++ mark :: r.renderTime ++ rest =
      paddedDigits 4 r.date.year.natAbs ++ '-' :: (paddedDigits 2 r.date.month ++
        '-' :: (paddedDigits 2 r.date.day ++ mark :: (paddedDigits 2 r.hour ++
          ':' :: (paddedDigits 2 r.minute ++ ':' :: (paddedDigits 2 r.second ++
            (renderFraction r.nanos ++ rest)))))) := by
  simp only [Reading.renderDate, Reading.renderTime, renderYear, if_pos hyear, List.append_assoc,
    List.cons_append]

/-- A date and time of day with a four-digit year is read as it was written, up to its offset. -/
theorem Reading.readRfc3339?_eq {r : Reading} (h : r.isValid = true)
    (hyear : 0 ≤ r.date.year ∧ r.date.year ≤ 9999) {mark : Char} (hmark : mark = 'T' ∨ mark = ' ')
    {offset : List Char} (hends : EndsNumber offset) (hpoint : offset.head? ≠ some '.') :
    readRfc3339? (r.renderDate ++ mark :: r.renderTime ++ offset) = r.withOffset? offset := by
  obtain ⟨hmonth, hday, hhour, hminute, hsecond, hnanos⟩ := Reading.parts_lt h
  have h₂ : tenTo 2 = 100 := rfl
  have h₄ : tenTo 4 = 10000 := rfl
  have hyearAbs : r.date.year.natAbs < tenTo 4 := by omega
  have hyearBack : (r.date.year.natAbs : Int) = r.date.year := by omega
  have two : ∀ {n : Nat} (rest : List Char), n < 100 →
      leadingNumber? 2 2 (paddedDigits 2 n ++ rest) = some (n, rest) := fun rest hn =>
    leadingNumber?_paddedDigits 2 (by decide) (by decide) (by omega) rest
  have hmarked : ∀ rest, (expect? 'T' (mark :: rest) <|> expect? 't' (mark :: rest) <|>
      expect? ' ' (mark :: rest)) = some rest := by
    intro rest
    rcases hmark with rfl | rfl <;> rfl
  rw [r.text_eq hyear, readRfc3339?]
  refine (bind_of_eq_some
    (leadingNumber?_paddedDigits 4 (by decide) (by decide) hyearAbs _)).trans ?_
  refine (bind_of_eq_some (expect?_self '-' _)).trans ?_
  refine (bind_of_eq_some (two _ hmonth)).trans ?_
  refine (bind_of_eq_some (expect?_self '-' _)).trans ?_
  refine (bind_of_eq_some (two _ hday)).trans ?_
  refine (bind_of_eq_some (hmarked _)).trans ?_
  refine (bind_of_eq_some (two _ hhour)).trans ?_
  refine (bind_of_eq_some (expect?_self ':' _)).trans ?_
  refine (bind_of_eq_some (two _ hminute)).trans ?_
  refine (bind_of_eq_some (expect?_self ':' _)).trans ?_
  refine (bind_of_eq_some (two _ hsecond)).trans ?_
  refine (bind_of_eq_some (readFraction?_renderFraction hnanos hends hpoint)).trans ?_
  rw [hyearBack]
  rfl

theorem reaches_of_hasFourDigitYear {t : Instant} (h : t.hasFourDigitYear = true) :
    reaches t.reading.date.year = true := by
  obtain ⟨hlower, hupper⟩ := year_range h
  simp only [reaches, Bool.and_eq_true, decide_eq_true_eq]
  omega

theorem readRfc3339?_render {t : Instant} (h : t.hasFourDigitYear = true) :
    readRfc3339? t.render = some t := by
  have hoffset : t.reading.withOffset? "+00:00".toList = ofReading? t.reading 0 := rfl
  rw [render, renderLocal, Reading.readRfc3339?_eq t.isValid_reading (year_range h) (.inl rfl)
    (by rfl) (by decide), hoffset, ofReading?_reading t (reaches_of_hasFourDigitYear h)]

/-! ### Years with a sign -/

/-- The sign of a year that four digits do not hold. -/
def yearSign (year : Int) : Char :=
  if year < 0 then '-' else '+'

theorem render_of_not_hasFourDigitYear {t : Instant} (h : t.hasFourDigitYear = false) :
    ∃ rest, t.render = yearSign t.reading.date.year ::
      (paddedDigits 4 t.reading.date.year.natAbs ++ '-' :: (paddedDigits 2 t.reading.date.month ++
        '-' :: (paddedDigits 2 t.reading.date.day ++ 'T' :: rest))) := by
  have hyear : ¬ (0 ≤ t.reading.date.year ∧ t.reading.date.year ≤ 9999) := by
    simpa [hasFourDigitYear] using h
  refine ⟨t.reading.renderTime ++ "+00:00".toList, ?_⟩
  simp only [render, renderLocal, Reading.renderDate, renderYear, if_neg hyear, yearSign,
    List.append_assoc, List.cons_append]

/-- The internet form begins with a digit. -/
theorem readRfc3339?_yearSign (year : Int) (s : List Char) :
    readRfc3339? (yearSign year :: s) = none := by
  have hends : EndsNumber (yearSign year :: s) := by
    rw [yearSign]
    split <;> rfl
  rw [readRfc3339?, hends.leadingNumber?_eq_none (by decide)]
  rfl

theorem readYear?_yearSign (year : Int) (n : Nat) {rest : List Char} (hrest : EndsNumber rest) :
    ∃ m, readYear? (yearSign year :: (paddedDigits 4 n ++ rest)) = some (m, rest) := by
  have hnumber : leadingNumber? 1 (paddedDigits 4 n ++ rest).length (paddedDigits 4 n ++ rest) =
      some (n, rest) := by
    have hlen := le_length_paddedDigits 4 n
    rw [leadingNumber?_append (fun c hc => isDigit_paddedDigits hc) (by omega)
      (by rw [List.length_append]; omega) (.inr hrest), numberOf_paddedDigits]
  by_cases hneg : year < 0
  · refine ⟨-(n : Int), ?_⟩
    have htrim : trimStart ('-' :: (paddedDigits 4 n ++ rest)) =
        '-' :: (paddedDigits 4 n ++ rest) := rfl
    simp only [readYear?, yearSign, if_pos hneg, htrim, hnumber, Option.map_some]
  · refine ⟨n, ?_⟩
    have htrim : trimStart ('+' :: (paddedDigits 4 n ++ rest)) =
        '+' :: (paddedDigits 4 n ++ rest) := rfl
    simp only [readYear?, yearSign, if_neg hneg, htrim, hnumber, Option.map_some]

theorem readLoose?_paddedDigits {n : Nat} (hn : n < 100) (rest : List Char) :
    readLoose? 2 (paddedDigits 2 n ++ rest) = some (n, rest) := by
  rw [readLoose?, trimStart_of_isDigit (fun c hc => isDigit_paddedDigits hc)
    (paddedDigits_ne_nil 2 n), leadingNumber?_paddedDigits 1 (by decide) (by decide) hn]

/-- A text of a year with a sign has a `T` where the plain form has the hour. -/
theorem readPlain?_render {t : Instant} (h : t.hasFourDigitYear = false) :
    readPlain? t.render = none := by
  obtain ⟨rest, htext⟩ := render_of_not_hasFourDigitYear h
  obtain ⟨hmonth, hday, -⟩ := Reading.parts_lt t.isValid_reading
  have hT : readLoose? 2 ('T' :: rest) = none := by
    have htrim : trimStart ('T' :: rest) = 'T' :: rest := rfl
    have hends : EndsNumber ('T' :: rest) := rfl
    rw [readLoose?, htrim, hends.leadingNumber?_eq_none (by decide)]
  have hends : EndsNumber ('-' :: (paddedDigits 2 t.reading.date.month ++
      '-' :: (paddedDigits 2 t.reading.date.day ++ 'T' :: rest))) := rfl
  obtain ⟨m, hyear⟩ := readYear?_yearSign t.reading.date.year t.reading.date.year.natAbs hends
  rw [htext, readPlain?]
  refine (bind_of_eq_some hyear).trans ?_
  refine (bind_of_eq_some (expect?_self '-' _)).trans ?_
  refine (bind_of_eq_some (readLoose?_paddedDigits hmonth _)).trans ?_
  refine (bind_of_eq_some (expect?_self '-' _)).trans ?_
  refine (bind_of_eq_some (readLoose?_paddedDigits hday _)).trans ?_
  change (readLoose? 2 ('T' :: rest)).bind _ = none
  rw [hT, Option.bind_none]

/-! ### The stored text -/

theorem renderYear_ne_nil (year : Int) : renderYear year ≠ [] := by
  rw [renderYear]
  split
  · exact paddedDigits_ne_nil _ _
  · exact List.cons_ne_nil _ _

theorem isBlank_head_renderYear {year : Int} {c : Char} (h : c ∈ (renderYear year).head?) :
    isBlank c = false := by
  rw [renderYear] at h
  split at h
  · exact isBlank_of_isDigit (isDigit_paddedDigits (List.mem_of_mem_head? h))
  · obtain rfl := Option.some.inj h
    split <;> decide

theorem isDigit_last_append {s : List Char} {width n : Nat} {c : Char}
    (h : c ∈ (s ++ paddedDigits width n).getLast?) : c.isDigit = true := by
  rw [List.getLast?_append, Option.or_of_isSome (by simpa using paddedDigits_ne_nil width n)] at h
  exact isDigit_paddedDigits (List.mem_of_getLast? h)

/-- A time of day ends in the digits of its fraction, or of its seconds. -/
theorem Reading.exists_renderTime (r : Reading) :
    ∃ s width n, r.renderTime = s ++ paddedDigits width n := by
  rw [Reading.renderTime, renderFraction]
  split
  · exact ⟨paddedDigits 2 r.hour ++ ':' :: paddedDigits 2 r.minute ++ [':'], 2, r.second,
      by simp⟩
  · split
    · exact ⟨_ ++ ['.'], _, _, (List.append_assoc _ ['.'] _).symm⟩
    · split
      · exact ⟨_ ++ ['.'], _, _, (List.append_assoc _ ['.'] _).symm⟩
      · exact ⟨_ ++ ['.'], _, _, (List.append_assoc _ ['.'] _).symm⟩

/-- A date and time of day have no blanks around them, nor with an offset behind them. -/
theorem Reading.trimmed_eq_self (r : Reading) (mark : Char) {offset : List Char}
    (hoffset : offset.getLast?.any isBlank = false) :
    trimmed (r.renderDate ++ mark :: r.renderTime ++ offset) =
      r.renderDate ++ mark :: r.renderTime ++ offset := by
  refine Text.trimmed_eq_self (fun c hc => ?_) (fun c hc => ?_)
  · have hhead : (r.renderDate ++ mark :: r.renderTime ++ offset).head? =
        (renderYear r.date.year).head? := by
      simp only [Reading.renderDate, List.append_assoc, List.head?_append]
      exact Option.or_of_isSome (by simpa using renderYear_ne_nil _)
    exact isBlank_head_renderYear (hhead ▸ hc)
  · obtain ⟨s, width, n, htime⟩ := r.exists_renderTime
    rw [List.getLast?_append] at hc
    cases hlast : offset.getLast? with
    | some d =>
      rw [hlast] at hc
      obtain rfl := Option.some.inj hc
      rwa [hlast] at hoffset
    | none =>
      have htext : r.renderDate ++ mark :: r.renderTime =
          r.renderDate ++ mark :: s ++ paddedDigits width n := by
        rw [htime, List.append_assoc, List.cons_append]
      rw [hlast, Option.none_or, htext] at hc
      exact isBlank_of_isDigit (isDigit_last_append hc)

theorem trimmed_render (t : Instant) : trimmed t.render = t.render :=
  t.reading.trimmed_eq_self 'T' rfl

/-- **A stored instant is read back** if its year has four digits, and not at all otherwise. -/
theorem ofText?_toString (t : Instant) :
    ofText? (toString t) = if t.hasFourDigitYear then some t else none := by
  have htext : (toString t).toList = t.render := String.toList_ofList
  rw [ofText?, htext, parse?]
  simp only [trimmed_render]
  cases h : t.hasFourDigitYear with
  | true => rw [readRfc3339?_render h, Option.some_or, if_pos rfl]
  | false =>
    rw [readPlain?_render h]
    obtain ⟨rest, htext⟩ := render_of_not_hasFourDigitYear h
    rw [htext, readRfc3339?_yearSign]
    rfl

end RecordLayer.Instant
