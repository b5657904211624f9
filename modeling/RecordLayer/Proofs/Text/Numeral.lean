import RecordLayer.Magnitude
import RecordLayer.Proofs.Text.Trimming
import RecordLayer.Text.Digits

/-!
# Numbers in digits

A number written in digits, with or without zeros before it, is read back: the digits stand for
the number (`numberOf_paddedDigits`), there are as many of them as the width asks for
(`length_paddedDigits`), and a number at the head of a text is read up to the end of its digits
(`leadingNumber?_append`).
-/

namespace RecordLayer.Text

theorem numberOf_eq_ofDigitChars (digits : List Char) :
    numberOf digits = Nat.ofDigitChars 10 digits 0 := by
  have hfold : ∀ n, digits.foldl (fun n c => n * 10 + digitValue c) n =
      Nat.ofDigitChars 10 digits n := by
    intro n
    rw [Nat.ofDigitChars_eq_foldl]
    congr 1
    funext n c
    rw [digitValue, Nat.mul_comm]
  exact hfold 0

/-! ### Padded digits -/

theorem isDigit_paddedDigits {width n : Nat} {c : Char} (h : c ∈ paddedDigits width n) :
    c.isDigit = true := by
  rcases List.mem_append.1 h with h | h
  · rw [List.eq_of_mem_replicate h]
    rfl
  · exact Nat.isDigit_of_mem_toDigits (by decide) (by decide) h

@[simp] theorem numberOf_paddedDigits (width n : Nat) : numberOf (paddedDigits width n) = n := by
  rw [numberOf_eq_ofDigitChars, paddedDigits, Nat.ofDigitChars_append,
    Nat.ofDigitChars_replicate_zero, Nat.mul_zero, Nat.ofDigitChars_ten_toDigits]

theorem le_length_paddedDigits (width n : Nat) : width ≤ (paddedDigits width n).length := by
  rw [paddedDigits, List.length_append, List.length_replicate]
  omega

theorem length_paddedDigits {width n : Nat} (hw : 0 < width) (hn : n < tenTo width) :
    (paddedDigits width n).length = width := by
  have hlen := (Nat.length_toDigits_le_iff (by decide) hw).2 hn
  rw [paddedDigits, List.length_append, List.length_replicate]
  omega

theorem paddedDigits_ne_nil (width n : Nat) : paddedDigits width n ≠ [] :=
  List.append_ne_nil_of_right_ne_nil _ Nat.toDigits_ne_nil

/-! ### Reading a number -/

/-- The text does not go on with a digit. -/
def EndsNumber (s : List Char) : Prop :=
  s.head?.any Char.isDigit = false

theorem EndsNumber.takeWhile_take {s : List Char} (h : EndsNumber s) (n : Nat) :
    (s.take n).takeWhile Char.isDigit = [] := by
  cases s with
  | nil => simp
  | cons c s =>
    have hc : c.isDigit = false := h
    cases n <;> simp [hc]

/-- Without a digit at its head a text begins with no number. -/
theorem EndsNumber.leadingNumber?_eq_none {s : List Char} (h : EndsNumber s) {least : Nat}
    (hleast : 0 < least) (most : Nat) : leadingNumber? least most s = none := by
  rw [leadingNumber?]
  simp only [h.takeWhile_take, List.length_nil, hleast, if_true]

/-- A number is read up to the end of its digits, or as far as may be. -/
theorem leadingNumber?_append {least most : Nat} {digits : List Char}
    (hdigits : ∀ c ∈ digits, c.isDigit = true) (hleast : least ≤ digits.length)
    (hmost : digits.length ≤ most) {rest : List Char}
    (hrest : digits.length = most ∨ EndsNumber rest) :
    leadingNumber? least most (digits ++ rest) = some (numberOf digits, rest) := by
  have hnone : (rest.take (most - digits.length)).takeWhile Char.isDigit = [] := by
    rcases hrest with h | h
    · rw [h, Nat.sub_self, List.take_zero, List.takeWhile_nil]
    · exact h.takeWhile_take _
  have hrun : ((digits ++ rest).take most).takeWhile Char.isDigit = digits := by
    rw [List.take_append, List.take_of_length_le hmost, List.takeWhile_append_of_pos hdigits,
      hnone, List.append_nil]
  rw [leadingNumber?]
  simp only [hrun, Nat.not_lt.2 hleast, if_false, List.drop_left]

/-- A number of fixed width is read whatever follows it. -/
theorem leadingNumber?_paddedDigits {width n : Nat} (least : Nat) (hleast : least ≤ width)
    (hw : 0 < width) (hn : n < tenTo width) (rest : List Char) :
    leadingNumber? least width (paddedDigits width n ++ rest) = some (n, rest) := by
  have hlen := length_paddedDigits hw hn
  rw [leadingNumber?_append (fun c hc => isDigit_paddedDigits hc) (Nat.le_trans hleast
    (Nat.le_of_eq hlen.symm)) (Nat.le_of_eq hlen) (.inl hlen), numberOf_paddedDigits]

theorem isBlank_of_isDigit {c : Char} (h : c.isDigit = true) : isBlank c = false :=
  isBlank_of_isWordChar (by simp [isWordChar, Char.isAlphanum, h])

theorem trimStart_of_isDigit {digits : List Char} (hdigits : ∀ c ∈ digits, c.isDigit = true)
    (hne : digits ≠ []) (rest : List Char) : trimStart (digits ++ rest) = digits ++ rest :=
  dropWhile_eq_self fun c hc => by
    rw [List.head?_append, Option.or_of_isSome (by simpa using hne)] at hc
    exact isBlank_of_isDigit (hdigits c (List.mem_of_mem_head? hc))

end RecordLayer.Text
