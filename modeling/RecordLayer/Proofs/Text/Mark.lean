import Mathlib.Data.List.Infix
import RecordLayer.Text.Mark

/-!
# Texts cut at a mark

Cutting at the first occurrence of a mark fails exactly if the mark does not occur
(`cutFirst?_eq_none_iff`), and otherwise what stands before it is the text behind which the mark
comes for the first time (`cutFirst?_eq_some_iff`).  For the last occurrence, what stands behind
some character may be left out if the mark is found neither there nor across that character
(`cutLast?_append_cons`).  Whether a mark occurs in a text can be told on the two sides of a
character that it has once (`infix_append_cons_iff`).
-/

namespace RecordLayer.Text

/-- Behind the text, the mark comes for the first time. -/
def EndsAt (mark s : List Char) : Prop :=
  ∀ before after, s ++ mark = before ++ mark ++ after → after = []

variable {mark s before after : List Char}

theorem EndsAt.of_cons {c : Char} (h : EndsAt mark (c :: s)) : EndsAt mark s := by
  intro before after heq
  refine h (c :: before) after ?_
  rw [List.cons_append, heq]
  rfl

/-- The mark does not begin before the end. -/
theorem EndsAt.afterMark?_eq_none {c : Char} (h : EndsAt mark (c :: s)) (after : List Char) :
    afterMark? mark (c :: s ++ mark ++ after) = none := by
  cases hrest : afterMark? mark (c :: s ++ mark ++ after) with
  | none => rfl
  | some rest =>
    have hboth : mark <+: c :: s ++ mark ++ after := ⟨rest, (afterMark?_eq_some_iff.1 hrest).symm⟩
    have hshort : mark.length ≤ (c :: s ++ mark).length := by
      rw [List.length_append]
      exact Nat.le_add_left _ _
    obtain ⟨behind, hbehind⟩ :=
      List.prefix_of_prefix_length_le hboth (List.prefix_append _ _) hshort
    obtain rfl := h [] behind hbehind.symm
    have hlength := congrArg List.length hbehind
    simp only [List.append_nil, List.length_append, List.length_cons] at hlength
    omega

theorem cutFirst?_append (h : EndsAt mark s) (after : List Char) :
    cutFirst? mark (s ++ mark ++ after) = some (s, after) := by
  induction s with
  | nil =>
    rw [List.nil_append]
    cases htext : mark ++ after with
    | nil =>
      obtain ⟨rfl, rfl⟩ := List.append_eq_nil_iff.1 htext
      rfl
    | cons c rest => rw [cutFirst?, ← htext, afterMark?_eq_some_iff.2 rfl]
  | cons c s ih =>
    have hnone := h.afterMark?_eq_none after
    rw [List.cons_append, List.cons_append] at hnone ⊢
    rw [cutFirst?, hnone, ih h.of_cons]
    rfl

theorem endsAt_of_cutFirst? (h : cutFirst? mark s = some (before, after)) : EndsAt mark before := by
  induction s generalizing before with
  | nil =>
    cases mark with
    | nil =>
      cases h
      intro p q heq
      exact (List.append_eq_nil_iff.1 heq.symm).2
    | cons m mark => cases h
  | cons c s ih =>
    rw [cutFirst?] at h
    split at h
    · cases h
      intro p q heq
      have hlength := congrArg List.length heq
      simp only [List.nil_append, List.length_append] at hlength
      exact List.length_eq_zero_iff.1 (by omega)
    · rename_i hnone
      obtain ⟨⟨before', after'⟩, hcut, heq⟩ := Option.map_eq_some_iff.1 h
      cases heq
      intro p q heq
      cases p with
      | nil =>
        -- the mark would begin the whole text
        have hs := eq_append_of_cutFirst? hcut
        have hwhole : c :: s = mark ++ (q ++ after) := by
          rw [hs, ← List.cons_append, ← List.cons_append, heq, List.nil_append, List.append_assoc]
        rw [afterMark?_eq_some_iff.2 hwhole] at hnone
        cases hnone
      | cons d p => exact ih hcut p q (List.cons.inj heq).2

theorem cutFirst?_eq_some_iff : cutFirst? mark s = some (before, after) ↔
    s = before ++ mark ++ after ∧ EndsAt mark before := by
  refine ⟨fun h => ⟨eq_append_of_cutFirst? h, endsAt_of_cutFirst? h⟩, ?_⟩
  rintro ⟨rfl, h⟩
  exact cutFirst?_append h after

theorem cutFirst?_ne_none (mark before after : List Char) :
    cutFirst? mark (before ++ mark ++ after) ≠ none := by
  induction before with
  | nil =>
    cases htext : mark ++ after with
    | nil =>
      obtain ⟨rfl, rfl⟩ := List.append_eq_nil_iff.1 htext
      exact Option.some_ne_none _
    | cons c rest =>
      rw [List.nil_append, htext, cutFirst?, ← htext, afterMark?_eq_some_iff.2 rfl]
      exact Option.some_ne_none _
  | cons c before ih =>
    rw [List.cons_append, List.cons_append, cutFirst?]
    split
    · exact Option.some_ne_none _
    · exact mt Option.map_eq_none_iff.1 ih

theorem cutFirst?_eq_none_iff : cutFirst? mark s = none ↔ ¬ mark <:+: s := by
  constructor
  · rintro hnone ⟨before, after, rfl⟩
    exact cutFirst?_ne_none mark before after hnone
  · intro hnot
    cases hcut : cutFirst? mark s with
    | none => rfl
    | some cut => exact absurd ⟨cut.1, cut.2, (eq_append_of_cutFirst? hcut).symm⟩ hnot

theorem hasMark_iff : hasMark mark s = true ↔ mark <:+: s := by
  rw [hasMark, Option.isSome_iff_ne_none, ne_eq, cutFirst?_eq_none_iff, not_not]

/-- A mark comes for the first time behind a text that does not have its first character. -/
theorem endsAt_of_not_mem {c : Char} (h : c ∉ s) : EndsAt (c :: mark) s := by
  intro before after heq
  rw [List.append_assoc, List.cons_append] at heq
  rcases List.append_eq_append_iff.1 heq with ⟨t, -, hmark⟩ | ⟨t, rfl, hmark⟩
  · have hlength := congrArg List.length hmark
    simp only [List.length_append, List.length_cons] at hlength
    exact List.length_eq_zero_iff.1 (by omega)
  · cases t with
    | nil => exact List.append_right_eq_self.1 (List.cons.inj hmark).2
    | cons d t =>
      obtain ⟨rfl, -⟩ := List.cons.inj hmark
      exact absurd (List.mem_append_right _ List.mem_cons_self) h

theorem endsAt_singleton {c : Char} (h : c ∉ s) : EndsAt [c] s :=
  endsAt_of_not_mem h

theorem EndsAt.not_mem {c : Char} (h : EndsAt [c] s) : c ∉ s := by
  intro hmem
  obtain ⟨front, back, rfl⟩ := List.append_of_mem hmem
  exact List.append_ne_nil_of_right_ne_nil back (List.cons_ne_nil c [])
    (h front (back ++ [c]) (by simp))

/-! ### The last occurrence -/

theorem eq_append_of_cutLast? (h : cutLast? mark s = some (before, after)) :
    s = before ++ mark ++ after := by
  induction s generalizing before with
  | nil =>
    cases mark with
    | nil => cases h; rfl
    | cons m mark => cases h
  | cons c s ih =>
    rw [cutLast?] at h
    split at h
    · rename_i p q hcut
      cases h
      rw [ih hcut]
      rfl
    · obtain ⟨rest, hrest, heq⟩ := Option.map_eq_some_iff.1 h
      cases heq
      exact afterMark?_eq_some_iff.1 hrest

theorem cutLast?_ne_none (mark before after : List Char) :
    cutLast? mark (before ++ mark ++ after) ≠ none := by
  induction before with
  | nil =>
    rw [List.nil_append]
    cases htext : mark ++ after with
    | nil =>
      obtain ⟨rfl, rfl⟩ := List.append_eq_nil_iff.1 htext
      exact Option.some_ne_none _
    | cons c rest =>
      rw [cutLast?]
      split
      · exact Option.some_ne_none _
      · rw [← htext, afterMark?_eq_some_iff.2 rfl]
        exact Option.some_ne_none _
  | cons c before ih =>
    obtain ⟨cut, hcut⟩ := Option.ne_none_iff_exists'.1 ih
    rw [List.cons_append, List.cons_append, cutLast?, hcut]
    exact Option.some_ne_none _

theorem cutLast?_eq_none_iff : cutLast? mark s = none ↔ ¬ mark <:+: s := by
  constructor
  · rintro hnone ⟨before, after, rfl⟩
    exact cutLast?_ne_none mark before after hnone
  · intro hnot
    cases hcut : cutLast? mark s with
    | none => rfl
    | some cut => exact absurd ⟨cut.1, cut.2, (eq_append_of_cutLast? hcut).symm⟩ hnot

/-- A mark that does not contain `sep` does not reach over it. -/
theorem afterMark?_append_cons {sep : Char} (hsep : sep ∉ mark) (s u : List Char) :
    afterMark? mark (s ++ sep :: u) = (afterMark? mark s).map (· ++ sep :: u) := by
  induction mark generalizing s with
  | nil => rfl
  | cons m mark ih =>
    obtain ⟨hne, hsep⟩ := not_or.1 (mt List.mem_cons.2 hsep)
    cases s with
    | nil =>
      have hnot : afterMark? (m :: mark) (sep :: u) = none := if_neg (by simpa using Ne.symm hne)
      rw [List.nil_append, hnot]
      rfl
    | cons c s =>
      rw [List.cons_append, afterMark?, afterMark?, ih hsep]
      split <;> rfl

/-- If the mark does not occur behind `sep`, its last occurrence is the one before `sep`. -/
theorem cutLast?_append_cons {sep : Char} {u : List Char} (hsep : sep ∉ mark)
    (hnone : cutLast? mark u = none) (s : List Char) :
    cutLast? mark (s ++ sep :: u) =
      (cutLast? mark s).map fun (before, after) => (before, after ++ sep :: u) := by
  induction s with
  | nil =>
    cases mark with
    | nil => exact absurd hnone (cutLast?_ne_none [] [] u)
    | cons m mark =>
      have hafter : afterMark? (m :: mark) (sep :: u) = none := afterMark?_append_cons hsep [] u
      have hnil : cutLast? (m :: mark) [] = none := rfl
      rw [hnil, List.nil_append, cutLast?, hnone, hafter]
      rfl
  | cons c s ih =>
    rw [List.cons_append, cutLast?, cutLast?, ih, ← List.cons_append, afterMark?_append_cons hsep]
    cases cutLast? mark s with
    | none => cases afterMark? mark (c :: s) <;> rfl
    | some cut => rfl

/-- A mark of one character is cut at where it does not occur behind. -/
theorem cutLast?_singleton {c : Char} (h : c ∉ after) (before : List Char) :
    cutLast? [c] (before ++ c :: after) = some (before, after) := by
  induction before with
  | nil =>
    have hnone : cutLast? [c] after = none :=
      cutLast?_eq_none_iff.2 fun hoccurs => h (hoccurs.subset (List.mem_singleton_self c))
    have hafter : afterMark? [c] (c :: after) = some after := afterMark?_eq_some_iff.2 rfl
    rw [List.nil_append, cutLast?, hnone, hafter]
    rfl
  | cons d before ih => rw [List.cons_append, cutLast?, ih]

/-! ### Occurrences around a character -/

section
variable {sep : Char} {front back t : List Char}

/-- A mark that does not contain `sep` begins a text if it begins what stands before `sep`. -/
theorem prefix_append_cons_iff (hsep : sep ∉ mark) : mark <+: s ++ sep :: t ↔ mark <+: s := by
  constructor
  · rintro ⟨rest, hrest⟩
    have hafter := afterMark?_append_cons hsep s t
    rw [afterMark?_eq_some_iff.2 hrest.symm] at hafter
    obtain ⟨rest', hrest', -⟩ := Option.map_eq_some_iff.1 hafter.symm
    exact ⟨rest', (afterMark?_eq_some_iff.1 hrest').symm⟩
  · intro h
    exact h.trans (List.prefix_append s (sep :: t))

/-- A mark with one `sep` in it that begins a text with one ends before the text's `sep`, or has
its own there. -/
theorem prefix_append_cons_iff_around (hfront : sep ∉ front) (hback : sep ∉ back) :
    front ++ sep :: back <+: s ++ sep :: t ↔
      front ++ sep :: back <+: s ∨ front = s ∧ back <+: t := by
  induction front generalizing s with
  | nil =>
    cases s with
    | nil => simp
    | cons c s => simp [List.cons_prefix_cons, prefix_append_cons_iff hback]
  | cons d front ih =>
    obtain ⟨hd, hfront⟩ := not_or.1 (mt List.mem_cons.2 hfront)
    cases s with
    | nil => simp [List.cons_prefix_cons, Ne.symm hd]
    | cons c s =>
      simp only [List.cons_append, List.cons_prefix_cons, ih hfront, List.cons.injEq, and_or_left,
        and_assoc]

/-- A mark with one `sep` in it occurs on one side of a `sep` in the text, or around it. -/
theorem infix_append_cons_iff (hfront : sep ∉ front) (hback : sep ∉ back) :
    front ++ sep :: back <:+: s ++ sep :: t ↔
      front ++ sep :: back <:+: s ∨ front ++ sep :: back <:+: t ∨ front <:+ s ∧ back <+: t := by
  induction s with
  | nil =>
    have hbegins := prefix_append_cons_iff_around (s := []) (t := t) hfront hback
    rw [List.nil_append] at hbegins
    simp [List.infix_cons_iff, hbegins, or_comm]
  | cons c s ih =>
    have hbegins := prefix_append_cons_iff_around (s := c :: s) (t := t) hfront hback
    rw [List.cons_append] at hbegins
    rw [List.cons_append, List.infix_cons_iff, List.infix_cons_iff, List.suffix_cons_iff, hbegins,
      ih, or_and_right]
    tauto

end

end RecordLayer.Text
