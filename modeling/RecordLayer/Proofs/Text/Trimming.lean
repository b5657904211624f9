import Mathlib.Data.List.Induction
import Mathlib.Data.List.TakeWhile
import RecordLayer.Text.Blank
import RecordLayer.Text.Word

/-!
# Trimming and cutting

A text whose first and last characters are no blanks is its own trimmed form; so are words, which
hold no blank at all, and what is left of a text that was trimmed.  A text is cut at a character as
lists are split in general (`cutAt_eq_splitOn`), and pieces that are joined hold nothing but what
they and the mark hold.
-/

namespace RecordLayer.Text

/-- Word characters are characters of ASCII. -/
theorem toNat_lt_of_isWordChar {c : Char} (h : isWordChar c = true) : c.toNat < 128 := by
  -- a letter of either case, a digit, or the underscore
  have hcases : ((c.isUpper || c.isLower) || c.isDigit || c == '_') = true := h
  simp only [Bool.or_eq_true, beq_iff_eq] at hcases
  rcases hcases with ((h | h) | h) | rfl
  · have hle : c.val ≤ 'Z'.val := (of_decide_eq_true h : _ ∧ _).2
    exact Nat.lt_of_le_of_lt (UInt32.le_iff_toNat_le.1 hle) (by decide)
  · have hle : c.val ≤ 'z'.val := of_decide_eq_true (Bool.and_eq_true_iff.1 h).2
    exact Nat.lt_of_le_of_lt (UInt32.le_iff_toNat_le.1 hle) (by decide)
  · exact Nat.lt_of_le_of_lt (Char.isDigit_iff_toNat.1 h).2 (by decide)
  · decide

/-- No blank is a word character. -/
theorem isBlank_of_isWordChar {c : Char} (h : isWordChar c = true) : isBlank c = false := by
  obtain ⟨n, hn, rfl⟩ : ∃ n < 128, c = Char.ofNat n :=
    ⟨c.toNat, toNat_lt_of_isWordChar h, (Char.ofNat_toNat c).symm⟩
  revert h
  revert n
  decide

theorem dropWhile_eq_self {s : List Char} (h : ∀ c ∈ s.head?, isBlank c = false) :
    s.dropWhile isBlank = s := by
  cases s with
  | nil => rfl
  | cons c s => simp [h c rfl]

/-- A text without a blank at either end is its own trimmed form. -/
theorem trimmed_eq_self {s : List Char} (hhead : ∀ c ∈ s.head?, isBlank c = false)
    (hlast : ∀ c ∈ s.getLast?, isBlank c = false) : trimmed s = s := by
  have hstart : trimStart s = s := dropWhile_eq_self hhead
  rw [trimmed, hstart, trimEnd, dropWhile_eq_self (by simpa using hlast), List.reverse_reverse]

theorem trimStart_append_cons {c : Char} (hc : isBlank c = false) (t s : List Char) :
    trimStart (t ++ c :: s) = trimStart t ++ c :: s := by
  rw [trimStart, List.dropWhile_append, trimStart]
  split
  · rename_i hnil
    rw [List.isEmpty_iff.1 hnil, List.dropWhile_cons, hc]
    rfl
  · rfl

theorem trimEnd_append_cons {c : Char} (hc : isBlank c = false) (t s : List Char) :
    trimEnd (t ++ c :: s) = t ++ c :: trimEnd s := by
  have hreverse : (t ++ c :: s).reverse = s.reverse ++ c :: t.reverse := by simp
  rw [trimEnd, hreverse, ← trimStart, trimStart_append_cons hc, List.reverse_append,
    List.reverse_cons, List.reverse_reverse, List.append_assoc]
  rfl

/-- Trimming takes nothing from around a character that is no blank. -/
theorem trimmed_append_cons {c : Char} (hc : isBlank c = false) (t s : List Char) :
    trimmed (t ++ c :: s) = trimStart t ++ c :: trimEnd s := by
  rw [trimmed, trimStart_append_cons hc, trimEnd_append_cons hc]

/-- A character that is no blank, and what stands behind it, are not trimmed away. -/
theorem length_trimmed_lt {c : Char} (hc : isBlank c = false) (t s : List Char) :
    (trimmed t).length < (trimmed (t ++ c :: s)).length := by
  have hend : (trimmed t).length ≤ (trimStart t).length := by
    have hdrop : ((trimStart t).reverse.dropWhile isBlank).Sublist (trimStart t).reverse :=
      List.dropWhile_sublist _
    simpa [trimmed, trimEnd] using hdrop.length_le
  rw [trimmed_append_cons hc, List.length_append, List.length_cons]
  omega

theorem trimEnd_of_unbroken {s : List Char} (h : ∀ c ∈ s, isBlank c = false) : trimEnd s = s := by
  rw [trimEnd, dropWhile_eq_self, List.reverse_reverse]
  intro c hc
  exact h c (List.mem_reverse.1 (List.mem_of_head? hc))

/-! ### Margins -/

theorem not_isBlank_head?_trimStart (s : List Char) :
    ∀ c ∈ (trimStart s).head?, isBlank c = false := by
  intro c hc
  have hnot := List.head?_dropWhile_not isBlank s
  rw [← trimStart, Option.mem_def.1 hc] at hnot
  exact hnot

theorem trimEnd_append_trail (s : List Char) :
    trimEnd s ++ (s.reverse.takeWhile isBlank).reverse = s := by
  rw [trimEnd, ← List.reverse_append, List.takeWhile_append_dropWhile, List.reverse_reverse]

/-- A text is what is left of it when it is trimmed, and the blanks around that. -/
theorem exists_margins (s : List Char) : ∃ lead trail, s = lead ++ (trimmed s ++ trail) ∧
    (∀ c ∈ lead, isBlank c = true) ∧ ∀ c ∈ trail, isBlank c = true := by
  refine ⟨s.takeWhile isBlank, ((trimStart s).reverse.takeWhile isBlank).reverse, ?_, ?_, ?_⟩
  · rw [trimmed, trimEnd_append_trail, trimStart, List.takeWhile_append_dropWhile]
  · exact fun c => List.mem_takeWhile_imp
  · exact fun c hc => List.mem_takeWhile_imp (List.mem_reverse.1 hc)

theorem trimmed_eq_nil_iff {s : List Char} : trimmed s = [] ↔ ∀ c ∈ s, isBlank c = true := by
  constructor
  · intro hnil
    obtain ⟨lead, trail, hs, hlead, htrail⟩ := exists_margins s
    rw [hnil, List.nil_append] at hs
    rw [hs]
    exact fun c hc => (List.mem_append.1 hc).elim (hlead c) (htrail c)
  · intro h
    rw [trimmed, trimStart, List.dropWhile_eq_nil_iff.2 h]
    rfl

theorem mem_of_mem_trimmed {c : Char} {s : List Char} (h : c ∈ trimmed s) : c ∈ s := by
  obtain ⟨lead, trail, hs, -, -⟩ := exists_margins s
  rw [hs]
  exact List.mem_append_right lead (List.mem_append_left trail h)

theorem trimmed_trimStart (s : List Char) : trimmed (trimStart s) = trimmed s := by
  rw [trimmed, trimStart, dropWhile_eq_self (not_isBlank_head?_trimStart s), trimmed]

/-- Trimming a text twice is trimming it once. -/
theorem trimmed_trimmed (s : List Char) : trimmed (trimmed s) = trimmed s := by
  refine trimmed_eq_self ?_ ?_
  · intro c hc
    have hbegins : trimmed s <+: trimStart s := by
      rw [trimmed, trimEnd, ← List.reverse_suffix, List.reverse_reverse]
      exact List.dropWhile_suffix _
    obtain ⟨trail, htrail⟩ := hbegins
    refine not_isBlank_head?_trimStart s c ?_
    rw [← htrail, List.head?_append, Option.mem_def.1 hc]
    rfl
  · intro c hc
    rw [trimmed, trimEnd, List.getLast?_reverse] at hc
    exact not_isBlank_head?_trimStart _ c hc

theorem trimmed_append_blank {c : Char} (hc : isBlank c = true) (s : List Char) :
    trimmed (s ++ [c]) = trimmed s := by
  have hend : ∀ t, trimEnd (t ++ [c]) = trimEnd t := by
    intro t
    rw [trimEnd, List.reverse_append, List.reverse_singleton, List.singleton_append,
      List.dropWhile_cons_of_pos hc, trimEnd]
  rw [trimmed, trimStart, List.dropWhile_append, trimmed, trimStart]
  split
  · rename_i hnil
    rw [List.isEmpty_iff.1 hnil, List.dropWhile_cons_of_pos hc, List.dropWhile_nil]
  · exact hend _

theorem trimmed_blanks_append {lead : List Char} (h : ∀ c ∈ lead, isBlank c = true)
    (s : List Char) : trimmed (lead ++ s) = trimmed s := by
  rw [trimmed, trimStart, List.dropWhile_append_of_pos h]
  rfl

theorem trimmed_append_blanks {trail : List Char} (h : ∀ c ∈ trail, isBlank c = true)
    (s : List Char) : trimmed (s ++ trail) = trimmed s := by
  induction trail using List.reverseRecOn with
  | nil => rw [List.append_nil]
  | append_singleton trail c ih =>
    have hc := h c (List.mem_append_right trail (List.mem_singleton_self c))
    rw [← List.append_assoc, trimmed_append_blank hc]
    exact ih fun d hd => h d (List.mem_append_left [c] hd)

theorem trimmed_trimEnd (s : List Char) : trimmed (trimEnd s) = trimmed s := by
  conv_rhs => rw [← trimEnd_append_trail s]
  exact (trimmed_append_blanks
    (fun c hc => List.mem_takeWhile_imp (List.mem_reverse.1 hc)) (trimEnd s)).symm

/-! ### Pieces -/

theorem cutWhere_eq_splitOnP (p : Char → Bool) (s : List Char) : cutWhere p s = s.splitOnP p := by
  induction s with
  | nil => rfl
  | cons c s ih =>
    rw [cutWhere, List.splitOnP_cons_eq_if_modifyHead, ih]
    cases hsplit : s.splitOnP p with
    | nil => exact absurd hsplit (List.splitOnP_ne_nil p s)
    | cons piece rest => rfl

theorem cutAt_eq_splitOn (mark : Char) (s : List Char) : cutAt mark s = s.splitOn mark :=
  cutWhere_eq_splitOnP _ s

theorem cutAt_ne_nil (mark : Char) (s : List Char) : cutAt mark s ≠ [] := by
  rw [cutAt_eq_splitOn]
  exact List.splitOnP_ne_nil _ s

theorem cutAt_cons_of_ne {mark c : Char} (h : c ≠ mark) (s : List Char) :
    cutAt mark (c :: s) = (cutAt mark s).modifyHead (c :: ·) := by
  rw [cutAt_eq_splitOn, cutAt_eq_splitOn, List.splitOn, List.splitOnP_cons_eq_if_modifyHead,
    if_neg (by simpa using h)]
  rfl

/-- What goes before the first mark goes before the first piece. -/
theorem cutAt_append {mark : Char} {before : List Char} (h : mark ∉ before) (s : List Char) :
    cutAt mark (before ++ s) = (cutAt mark s).modifyHead (before ++ ·) := by
  induction before with
  | nil => exact (congrFun List.modifyHead_id _).symm
  | cons c before ih =>
    obtain ⟨hc, hbefore⟩ := not_or.1 (mt List.mem_cons.2 h)
    rw [List.cons_append, cutAt_cons_of_ne (Ne.symm hc), ih hbefore, List.modifyHead_modifyHead]
    rfl

theorem cutAt_append_cons {mark : Char} (s t : List Char) :
    cutAt mark (s ++ mark :: t) = cutAt mark s ++ cutAt mark t := by
  rw [cutAt_eq_splitOn, cutAt_eq_splitOn, cutAt_eq_splitOn]
  exact List.splitOnP_append_cons s t (beq_self_eq_true mark)

theorem joined_cons {mark piece : List Char} {pieces : List (List Char)} (h : pieces ≠ []) :
    joined mark (piece :: pieces) = piece ++ mark ++ joined mark pieces := by
  rw [joined]
  exact h

/-- What occurs in joined pieces occurs in one of them, or in the mark. -/
theorem mem_joined {c : Char} {mark : List Char} {pieces : List (List Char)}
    (h : c ∈ joined mark pieces) : c ∈ mark ∨ ∃ piece ∈ pieces, c ∈ piece := by
  fun_induction joined mark pieces with
  | case1 => cases h
  | case2 piece => exact .inr ⟨piece, List.mem_singleton_self _, h⟩
  | case3 piece rest _ ih =>
    rcases List.mem_append.1 h with h | h
    · rcases List.mem_append.1 h with h | h
      · exact .inr ⟨piece, List.mem_cons_self, h⟩
      · exact .inl h
    · exact (ih h).imp_right fun ⟨p, hp, hc⟩ => ⟨p, List.mem_cons_of_mem _ hp, hc⟩

end RecordLayer.Text
