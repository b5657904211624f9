import RecordLayer.Proofs.Text.Trimming

/-!
# Identifiers

The names that a statement may write without quotes, and how the word at the head of a text is
told apart from what follows it.
-/

namespace RecordLayer.Text

/-- A letter or underscore, followed by letters, digits and underscores. -/
def isIdentifier : List Char → Bool
  | []     => false
  | c :: s => isWordStart c && s.all isWordChar

theorem isWordChar_of_isIdentifier {s : List Char} (h : isIdentifier s = true) :
    ∀ c ∈ s, isWordChar c = true := by
  cases s with
  | nil => simp
  | cons c s =>
    simp only [isIdentifier, Bool.and_eq_true, List.all_eq_true] at h
    intro d hd
    rcases List.mem_cons.1 hd with rfl | hd
    · exact isWordChar_of_isWordStart h.1
    · exact h.2 d hd

/-- A letter or underscore begins an identifier, which goes on as far as can be. -/
theorem isIdentifier_takeWhile {c : Char} (h : isWordStart c = true) (s : List Char) :
    isIdentifier (c :: s.takeWhile isWordChar) = true := by
  rw [isIdentifier, h, List.all_eq_true.2 fun d => List.mem_takeWhile_imp]
  rfl

theorem ne_nil_of_isIdentifier {s : List Char} (h : isIdentifier s = true) : s ≠ [] := by
  rintro rfl
  cases h

/-- A word ends with a word character. -/
theorem getLast?_any_isWordChar {s : List Char} (hne : s ≠ [])
    (h : ∀ c ∈ s, isWordChar c = true) : s.getLast?.any isWordChar = true := by
  rw [List.getLast?_eq_some_getLast hne, Option.any_some]
  exact h _ (List.getLast_mem hne)

theorem getLast?_any_of_isIdentifier {s : List Char} (h : isIdentifier s = true) :
    s.getLast?.any isWordChar = true :=
  getLast?_any_isWordChar (ne_nil_of_isIdentifier h) (isWordChar_of_isIdentifier h)

/-- How a text ends is how the last part of it ends. -/
theorem getLast?_any_append {t : List Char} (ht : t ≠ []) (s : List Char) :
    (s ++ t).getLast?.any isWordChar = t.getLast?.any isWordChar := by
  rw [List.getLast?_append, List.getLast?_eq_some_getLast ht, Option.some_or]

/-- The text does not go on with a word character. -/
def EndsWord (s : List Char) : Prop :=
  s.head?.any isWordChar = false

theorem endsWord_nil : EndsWord [] := rfl

theorem endsWord_cons {c : Char} (h : isWordChar c = false) (s : List Char) :
    EndsWord (c :: s) := h

theorem EndsWord.takeWhile_eq_nil {s : List Char} (h : EndsWord s) :
    s.takeWhile isWordChar = [] := by
  cases s with
  | nil => rfl
  | cons c s =>
    have hc : isWordChar c = false := h
    simp [hc]

theorem EndsWord.dropWhile_eq_self {s : List Char} (h : EndsWord s) :
    s.dropWhile isWordChar = s := by
  cases s with
  | nil => rfl
  | cons c s =>
    have hc : isWordChar c = false := h
    simp [hc]

theorem endsWord_dropWhile (s : List Char) : EndsWord (s.dropWhile isWordChar) := by
  induction s with
  | nil => rfl
  | cons c s ih =>
    rw [List.dropWhile_cons]
    split
    · exact ih
    · rename_i hc
      exact endsWord_cons (Bool.not_eq_true _ ▸ hc) s

/-- The word characters at the head of a text end where what follows it ends a word. -/
theorem EndsWord.takeWhile_append {s : List Char} (h : EndsWord s) (t : List Char) :
    (t ++ s).takeWhile isWordChar = t.takeWhile isWordChar := by
  induction t with
  | nil => simp [h.takeWhile_eq_nil]
  | cons c t ih => simp only [List.cons_append, List.takeWhile_cons, ih]

theorem EndsWord.dropWhile_append {s : List Char} (h : EndsWord s) (t : List Char) :
    (t ++ s).dropWhile isWordChar = t.dropWhile isWordChar ++ s := by
  induction t with
  | nil => simp [h.dropWhile_eq_self]
  | cons c t ih =>
    simp only [List.cons_append, List.dropWhile_cons, ih]
    split <;> rfl

end RecordLayer.Text
