import RecordLayer.Decimal.Numeral
import RecordLayer.Proofs.Text.Numeral

/-!
# Decimals that are stored as text

The written form of a decimal is read back as the same value (`ofText?_toString`).  The digits
before and after the point are the digits of one mantissa, and each run of them takes the reader
from a number to that number continued (`readDigits_append`); what stays below the largest
mantissa on the whole does so at each digit, so nothing is rounded on the way.
-/

namespace RecordLayer.Decimal
open Text

/-- Digits continue a number without making it smaller. -/
theorem le_ofDigitChars (digits : List Char) (m : Nat) : m ≤ Nat.ofDigitChars 10 digits m := by
  induction digits generalizing m with
  | nil => exact Nat.le_of_eq Nat.ofDigitChars_nil.symm
  | cons c digits ih =>
    rw [Nat.ofDigitChars_cons]
    exact Nat.le_trans (by omega) (ih _)

/-- A run of digits is read on, if neither the mantissa nor the places pass their bounds. -/
theorem readDigits_append {digits : List Char} (hdigits : ∀ c ∈ digits, c.isDigit = true)
    (r : Reading) (hbound : Nat.ofDigitChars 10 digits r.mantissa < twoTo 96)
    (hplaces : ∀ n ∈ r.places, n + digits.length ≤ 28) (rest : List Char) :
    readDigits r (digits ++ rest) =
      readDigits ⟨Nat.ofDigitChars 10 digits r.mantissa, r.seen || !digits.isEmpty,
        r.places.map (· + digits.length)⟩ rest := by
  induction digits generalizing r with
  | nil =>
    obtain ⟨m, seen, places⟩ := r
    cases places <;> simp
  | cons c digits ih =>
    obtain ⟨m, seen, places⟩ := r
    have hc := hdigits c List.mem_cons_self
    have hrest : ∀ d ∈ digits, d.isDigit = true := fun d hd =>
      hdigits d (List.mem_cons_of_mem _ hd)
    have hgrown : m * 10 + digitValue c < twoTo 96 := by
      rw [Nat.ofDigitChars_cons, Nat.mul_comm] at hbound
      exact Nat.lt_of_le_of_lt (le_ofDigitChars digits _) hbound
    have hstep : Nat.ofDigitChars 10 (c :: digits) m =
        Nat.ofDigitChars 10 digits (m * 10 + digitValue c) := by
      rw [Nat.ofDigitChars_cons, Nat.mul_comm]
      rfl
    rw [hstep] at hbound ⊢
    rw [List.cons_append, readDigits, if_pos hc]
    cases places with
    | none =>
      simp only [if_pos hgrown]
      rw [ih hrest ⟨m * 10 + digitValue c, true, none⟩ hbound (by simp)]
      simp
    | some n =>
      have hn : n + (digits.length + 1) ≤ 28 := hplaces n rfl
      simp only [if_pos (show n < 28 ∧ m * 10 + digitValue c < twoTo 96 from ⟨by omega, hgrown⟩)]
      rw [ih hrest ⟨m * 10 + digitValue c, true, some (n + 1)⟩ hbound
        (by simpa using by omega)]
      simp [Nat.add_assoc, Nat.add_comm 1]

theorem readDigits_point (m : Nat) (rest : List Char) :
    readDigits ⟨m, true, none⟩ ('.' :: rest) = readDigits ⟨m, true, some 0⟩ rest := by
  rw [readDigits]
  rfl

/-- The digits of a mantissa, cut where the point stands if it has one. -/
theorem digitsWithPoint_eq (mantissa scale : Nat) :
    ∃ whole places : List Char, whole ≠ [] ∧ places.length = scale ∧
      (∀ c ∈ whole, c.isDigit = true) ∧ (∀ c ∈ places, c.isDigit = true) ∧
      Nat.ofDigitChars 10 places (Nat.ofDigitChars 10 whole 0) = mantissa ∧
      digitsWithPoint mantissa scale = whole ++ if scale = 0 then [] else '.' :: places := by
  have hvalue : Nat.ofDigitChars 10 (paddedDigits (scale + 1) mantissa) 0 = mantissa := by
    rw [← numberOf_eq_ofDigitChars, numberOf_paddedDigits]
  have hlen := le_length_paddedDigits (scale + 1) mantissa
  have hdigits : ∀ c ∈ paddedDigits (scale + 1) mantissa, c.isDigit = true := fun c hc =>
    isDigit_paddedDigits hc
  unfold digitsWithPoint
  generalize paddedDigits (scale + 1) mantissa = digits at hvalue hlen hdigits
  refine ⟨digits.take (digits.length - scale), digits.drop (digits.length - scale), ?_, ?_,
    fun c hc => hdigits c (List.mem_of_mem_take hc),
    fun c hc => hdigits c (List.mem_of_mem_drop hc), ?_, ?_⟩
  · rw [ne_eq, List.take_eq_nil_iff, ← List.length_eq_zero_iff]
    omega
  · rw [List.length_drop]
    omega
  · rw [← Nat.ofDigitChars_append, List.take_append_drop, hvalue]
  · by_cases hscale : scale = 0
    · simp only [hscale, if_true, Nat.sub_zero, List.take_length, List.append_nil]
    · simp only [if_neg hscale]

/-- The digits of a mantissa with their point are read back. -/
theorem readDigits_digitsWithPoint {mantissa scale : Nat} (hm : mantissa < twoTo 96)
    (hs : scale ≤ 28) :
    ∃ point : Option Nat, point.getD 0 = scale ∧
      readDigits ⟨0, false, none⟩ (digitsWithPoint mantissa scale) =
        some ⟨mantissa, true, point⟩ := by
  obtain ⟨whole, places, hne, hlen, hwhole, hplaces, hvalue, htext⟩ :=
    digitsWithPoint_eq mantissa scale
  have hbelow : Nat.ofDigitChars 10 whole 0 < twoTo 96 :=
    Nat.lt_of_le_of_lt (le_ofDigitChars places _) (hvalue ▸ hm)
  have hread := readDigits_append hwhole ⟨0, false, none⟩ hbelow (by simp)
  have hseen : (false || !whole.isEmpty) = true := by simpa using hne
  simp only [hseen, Option.map_none] at hread
  rw [htext, hread]
  by_cases hscale : scale = 0
  · refine ⟨none, hscale.symm, ?_⟩
    rw [hscale, List.length_eq_zero_iff] at hlen
    rw [hlen, Nat.ofDigitChars_nil] at hvalue
    rw [if_pos hscale, hvalue]
    rfl
  · refine ⟨some scale, rfl, ?_⟩
    have hread := readDigits_append hplaces ⟨Nat.ofDigitChars 10 whole 0, true, some 0⟩
      (hvalue ▸ hm) (by simpa [hlen] using hs) []
    rw [List.append_nil] at hread
    rw [if_neg hscale, readDigits_point, hread, hvalue, Option.map_some, hlen, Nat.zero_add]
    rfl

theorem isDigit_head_digitsWithPoint {mantissa scale : Nat} {c : Char}
    (h : c ∈ (digitsWithPoint mantissa scale).head?) : c.isDigit = true := by
  obtain ⟨whole, places, hne, -, hwhole, -, -, htext⟩ := digitsWithPoint_eq mantissa scale
  rw [htext, List.head?_append, Option.or_of_isSome (by simpa using hne)] at h
  exact hwhole c (List.mem_of_mem_head? h)

theorem isDigit_last_digitsWithPoint {mantissa scale : Nat} {c : Char}
    (h : c ∈ (digitsWithPoint mantissa scale).getLast?) : c.isDigit = true := by
  obtain ⟨whole, places, -, hlen, hwhole, hplaces, -, htext⟩ := digitsWithPoint_eq mantissa scale
  rw [htext] at h
  by_cases hscale : scale = 0
  · rw [if_pos hscale, List.append_nil] at h
    exact hwhole c (List.mem_of_mem_getLast? h)
  · have hne : places ≠ [] := fun hnil => hscale (by rw [← hlen, hnil]; rfl)
    rw [if_neg hscale, List.getLast?_append, List.getLast?_cons, Option.some_or,
      List.getLast?_eq_some_getLast hne, Option.getD_some] at h
    obtain rfl := Option.some.inj h
    exact hplaces _ (List.getLast_mem hne)

/-! ### The stored text -/

theorem trim_toString (d : Decimal) : (trim (toString d)).toList = d.render := by
  have htext : (toString d).toList = d.render := String.toList_ofList
  rw [trim, htext, String.toList_ofList]
  refine trimmed_eq_self (fun c hc => ?_) (fun c hc => ?_)
  · rw [render] at hc
    split at hc
    · obtain rfl := Option.some.inj hc
      decide
    · exact isBlank_of_isDigit (isDigit_head_digitsWithPoint hc)
  · have hne : digitsWithPoint d.mantissa d.scale ≠ [] := by
      obtain ⟨whole, places, hne, -, -, -, -, htext⟩ := digitsWithPoint_eq d.mantissa d.scale
      rw [htext]
      exact List.append_ne_nil_of_left_ne_nil hne _
    rw [render, List.getLast?_append, Option.or_of_isSome (by simpa using hne)] at hc
    exact isBlank_of_isDigit (isDigit_last_digitsWithPoint hc)

/-- A decimal without the sign that a zero may carry. -/
def unsignedZero (d : Decimal) : Decimal :=
  { d with negative := d.negative && d.mantissa != 0 }

theorem same_unsignedZero (d : Decimal) : d.unsignedZero.same d = true := by
  rw [same_iff, units, units, unsignedZero]
  by_cases hzero : d.mantissa = 0
  · simp [hzero]
  · simp [hzero]

/-- A numeral without a sign is read from its first digit on. -/
theorem plain?_of_isDigit {s : List Char} (h : ∀ c ∈ s.head?, c.isDigit = true) :
    plain? s = match readDigits ⟨0, false, none⟩ s with
      | none => none
      | some r => ofParts? false r.mantissa (r.places.getD 0) := by
  cases s with
  | nil => rfl
  | cons c s =>
    have hc : c.isDigit = true := h c rfl
    have hminus : c ≠ '-' := by
      rintro rfl
      exact absurd hc (by decide)
    have hplus : c ≠ '+' := by
      rintro rfl
      exact absurd hc (by decide)
    unfold plain?
    split
    rename_i negative digits hsign
    split at hsign
    · rename_i heq
      exact absurd (List.cons.inj heq).1 hminus
    · rename_i heq
      exact absurd (List.cons.inj heq).1 hplus
    · cases hsign
      rfl

theorem plain?_minus (s : List Char) :
    plain? ('-' :: s) = match readDigits ⟨0, false, none⟩ s with
      | none => none
      | some r => ofParts? (r.mantissa != 0) r.mantissa (r.places.getD 0) := rfl

/-- **A stored decimal is read back**, scale and all, but a zero loses its sign. -/
theorem ofText?_toString (d : Decimal) :
    ofText? (trim (toString d)) = some d.unsignedZero := by
  obtain ⟨point, hpoint, hread⟩ := readDigits_digitsWithPoint d.mantissa_lt d.scale_le
  have hparts : ofParts? (d.negative && d.mantissa != 0) d.mantissa (point.getD 0) =
      some d.unsignedZero := by
    rw [hpoint, ofParts?, dif_pos ⟨d.mantissa_lt, d.scale_le⟩]
    rfl
  have hplain : plain? d.render = some d.unsignedZero := by
    rw [render]
    cases hneg : d.negative with
    | true =>
      rw [hneg, Bool.true_and] at hparts
      rw [if_pos rfl, List.cons_append, List.nil_append, plain?_minus, hread]
      exact hparts
    | false =>
      rw [hneg, Bool.false_and] at hparts
      rw [if_neg Bool.false_ne_true, List.nil_append,
        plain?_of_isDigit fun c hc => isDigit_head_digitsWithPoint hc, hread]
      exact hparts
  rw [ofText?, trim_toString, parse?, hplain, Option.some_or]

end RecordLayer.Decimal
