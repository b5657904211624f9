import RecordLayer.Calendar

/-!
# The calendar and its day numbers

The date of a day is a date of the calendar, and its number is that of the day
(`isValid_ofDays`, `toDays_ofDays`).  An era of four hundred years from March to February is cut
into centuries, leap cycles of four years, years and days (`Cycles`); the last year of a cycle has
a day more, but for the last cycle of the first three centuries.
-/

namespace RecordLayer.Date

/-- The centuries, leap cycles and years of an era that are over, and the day of the year. -/
structure Cycles where
  century : Int
  cycle : Int
  year : Int
  day : Int
  century_range : 0 ≤ century ∧ century ≤ 3
  cycle_range : 0 ≤ cycle ∧ cycle ≤ 24
  year_range : 0 ≤ year ∧ year ≤ 3
  day_range : 0 ≤ day ∧ day ≤ 365
  leap : day = 365 → year = 3 ∧ (cycle = 24 → century = 3)

namespace Cycles

/-- The day of the era. -/
def dayOfEra (x : Cycles) : Int :=
  36524 * x.century + 1461 * x.cycle + 365 * x.year + x.day

/-- The year of the era. -/
def yearOfEra (x : Cycles) : Int :=
  100 * x.century + 4 * x.cycle + x.year

theorem dayOfEra_range (x : Cycles) : 0 ≤ x.dayOfEra ∧ x.dayOfEra < 146097 := by
  obtain ⟨c, q, s, t, hc, hq, hs, ht, hleap⟩ := x
  simp only [dayOfEra]
  omega

theorem exists_dayOfEra {d : Int} (h₀ : 0 ≤ d) (h₁ : d < 146097) :
    ∃ x : Cycles, x.dayOfEra = d := by
  -- The last day of an era would open a fifth century, that of a cycle a fifth year.
  have hcentury : 0 ≤ min (d / 36524) 3 ∧ min (d / 36524) 3 ≤ 3 := by omega
  generalize hc : min (d / 36524) 3 = c at hcentury
  have hr : 0 ≤ d - 36524 * c ∧ d - 36524 * c ≤ 36524 ∧
      (d - 36524 * c = 36524 → c = 3) := by omega
  generalize hd : d - 36524 * c = r at hr
  have hcycle : 0 ≤ r / 1461 ∧ r / 1461 ≤ 24 := by omega
  generalize hq : r / 1461 = q at hcycle
  have ht : 0 ≤ r - 1461 * q ∧ r - 1461 * q ≤ 1460 := by omega
  generalize hrq : r - 1461 * q = t at ht
  have hyear : 0 ≤ min (t / 365) 3 ∧ min (t / 365) 3 ≤ 3 := by omega
  generalize hs : min (t / 365) 3 = s at hyear
  refine ⟨⟨c, q, s, t - 365 * s, hcentury, hcycle, hyear, by omega, by omega⟩, ?_⟩
  simp only [dayOfEra]
  omega

/-- The year of a day of the era, by the formula that counts the leap days. -/
theorem yearOfEra_eq (x : Cycles) :
    (x.dayOfEra - x.dayOfEra / 1460 + x.dayOfEra / 36524 - x.dayOfEra / 146096) / 365 =
      x.yearOfEra := by
  obtain ⟨c, q, s, t, hc, hq, hs, ht, hleap⟩ := x
  simp only [dayOfEra, yearOfEra]
  generalize hd : 36524 * c + 1461 * q + 365 * s + t = d
  have hleapDays : d / 1460 = 25 * c + q + (24 * c + q + 365 * s + t) / 1460 := by omega
  have hrest : 1461 * q + 365 * s + t ≤ 36523 ∨ d = 146096 ∧ c = 3 := by omega
  have hcenturies : d / 36524 - d / 146096 = c := by
    rcases hrest with hrest | ⟨rfl, rfl⟩
    · have hc' : d / 36524 = c := by omega
      have hera : d / 146096 = 0 := by omega
      omega
    · rfl
  -- The last days of a cycle's last year are counted one year on, less a day.
  have hlast : (24 * c + q + 365 * s + t) / 1460 = 0 ∧ t ≤ 364 ∨
      (24 * c + q + 365 * s + t) / 1460 = 1 ∧ s = 3 ∧ 1 ≤ t := by omega
  omega

theorem yearOfEra_range (x : Cycles) : 0 ≤ x.yearOfEra ∧ x.yearOfEra ≤ 399 := by
  obtain ⟨c, q, s, t, hc, hq, hs, ht, hleap⟩ := x
  simp only [yearOfEra]
  omega

/-- The days of the years before. -/
theorem dayOfEra_sub_day (x : Cycles) :
    365 * x.yearOfEra + x.yearOfEra / 4 - x.yearOfEra / 100 = x.dayOfEra - x.day := by
  obtain ⟨c, q, s, t, hc, hq, hs, ht, hleap⟩ := x
  simp only [dayOfEra, yearOfEra]
  have hcycles : (100 * c + 4 * q + s) / 4 = 25 * c + q := by omega
  have hcenturies : (100 * c + 4 * q + s) / 100 = c := by omega
  omega

/-- A year with a day more ends in the February of a leap year. -/
theorem isLeapYear_of_day_eq (x : Cycles) (h : x.day = 365) (era : Int) :
    isLeapYear (x.yearOfEra + era * 400 + 1) = true := by
  obtain ⟨c, q, s, t, hc, hq, hs, ht, hleap⟩ := x
  simp only [yearOfEra, isLeapYear, Bool.and_eq_true, Bool.or_eq_true, beq_iff_eq, bne_iff_ne]
  obtain ⟨rfl, hq₂₄⟩ := hleap h
  omega

end Cycles

/-- The date of a day whose era is cut into cycles. -/
theorem ofDays_eq (era : Int) (x : Cycles) :
    ofDays (era * 146097 + x.dayOfEra - 719468) =
      if (5 * x.day + 2) / 153 < 10 then
        ⟨x.yearOfEra + era * 400, ((5 * x.day + 2) / 153 + 3).toNat,
          (x.day - (153 * ((5 * x.day + 2) / 153) + 2) / 5 + 1).toNat⟩
      else
        ⟨x.yearOfEra + era * 400 + 1, ((5 * x.day + 2) / 153 - 9).toNat,
          (x.day - (153 * ((5 * x.day + 2) / 153) + 2) / 5 + 1).toNat⟩ := by
  obtain ⟨h₀, h₁⟩ := x.dayOfEra_range
  have hshift : era * 146097 + x.dayOfEra - 719468 + 719468 = era * 146097 + x.dayOfEra := by omega
  have hera : (era * 146097 + x.dayOfEra) / 146097 = era := by omega
  have hrest : (era * 146097 + x.dayOfEra) % 146097 = x.dayOfEra := by omega
  have hday : x.dayOfEra - (x.dayOfEra - x.day) = x.day := by omega
  simp only [ofDays, hshift, hera, hrest, x.yearOfEra_eq, x.dayOfEra_sub_day, hday]

theorem exists_cycles (days : Int) :
    ∃ (era : Int) (x : Cycles), days = era * 146097 + x.dayOfEra - 719468 := by
  obtain ⟨x, hx⟩ := Cycles.exists_dayOfEra (Int.emod_nonneg (days + 719468) (by decide))
    (Int.emod_lt_of_pos (days + 719468) (by decide))
  exact ⟨(days + 719468) / 146097, x, by omega⟩

/-- The date of a day stands in the calendar. -/
theorem isValid_ofDays (days : Int) : (ofDays days).isValid = true := by
  obtain ⟨era, x, rfl⟩ := exists_cycles days
  obtain ⟨h₀, h₁⟩ := x.day_range
  rw [ofDays_eq]
  generalize hm : (5 * x.day + 2) / 153 = m
  have hmonth : m = 0 ∨ m = 1 ∨ m = 2 ∨ m = 3 ∨ m = 4 ∨ m = 5 ∨ m = 6 ∨ m = 7 ∨ m = 8 ∨ m = 9 ∨
      m = 10 ∨ m = 11 := by omega
  rcases hmonth with rfl | rfl | rfl | rfl | rfl | rfl | rfl | rfl | rfl | rfl | rfl | rfl
  case inr.inr.inr.inr.inr.inr.inr.inr.inr.inr.inr =>
    -- February, the last month of the year
    have hleap : isLeapYear (x.yearOfEra + era * 400 + 1) = false → x.day ≠ 365 := fun hno h => by
      rw [x.isLeapYear_of_day_eq h] at hno
      cases hno
    simp only [isValid, daysInMonth, Int.reduceLT, if_false, Int.reduceSub, Int.reduceAdd,
      Int.reduceMul, Int.reduceDiv, Int.reduceToNat, Bool.and_eq_true, decide_eq_true_eq]
    cases hyear : isLeapYear (x.yearOfEra + era * 400 + 1) with
    | true =>
      simp only [if_true]
      omega
    | false =>
      have hne := hleap hyear
      simp only [Bool.false_eq_true, if_false]
      omega
  all_goals
    simp only [isValid, daysInMonth, Int.reduceLT, if_true, if_false, Int.reduceSub, Int.reduceAdd,
      Int.reduceMul, Int.reduceDiv, Int.reduceToNat, Bool.and_eq_true, decide_eq_true_eq]
    omega

/-- The number of a day's date is the day. -/
theorem toDays_ofDays (days : Int) : (ofDays days).toDays = days := by
  obtain ⟨era, x, rfl⟩ := exists_cycles days
  obtain ⟨h₀, h₁⟩ := x.day_range
  obtain ⟨hy₀, hy₁⟩ := x.yearOfEra_range
  rw [ofDays_eq]
  generalize hm : (5 * x.day + 2) / 153 = m
  have hday : 0 ≤ x.day - (153 * m + 2) / 5 := by omega
  have hsub := x.dayOfEra_sub_day
  have hera : (x.yearOfEra + era * 400) / 400 = era := by omega
  have hyear : (x.yearOfEra + era * 400) % 400 = x.yearOfEra := by omega
  split
  · have hmonth : ¬ (m + 3).toNat ≤ 2 := by omega
    have hback : ((m + 3).toNat : Int) - 3 = m := by omega
    simp only [toDays, hmonth, if_false, hback, hera, hyear]
    omega
  · have hmonth : (m - 9).toNat ≤ 2 := by omega
    have hback : ((m - 9).toNat : Int) + 9 = m := by omega
    have hbefore : x.yearOfEra + era * 400 + 1 - 1 = x.yearOfEra + era * 400 := by omega
    simp only [toDays, hmonth, if_true, hback, hbefore, hera, hyear]
    omega

end RecordLayer.Date
