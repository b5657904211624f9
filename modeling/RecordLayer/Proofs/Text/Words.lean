import Mathlib.Data.List.Chain
import RecordLayer.Proofs.Text.Trimming

/-!
# Words

The words of a text are its runs of characters that are no blanks, each as long as can be
(`HasWords`); every text has exactly one sequence of them (`hasWords_iff`).  Written with a space
between them they make a line: a text whose only blanks are single spaces inside of it
(`isLine_joined`).  A line is what its own words make (`joined_words_of_isLine`), so writing the
words of a text on one line is done once and for all.
-/

namespace RecordLayer.Text

/-- A text without blanks that is not empty. -/
structure IsRun (w : List Char) : Prop where
  nonempty : w ≠ []
  solid : ∀ c ∈ w, isBlank c = false

/-- The runs of a text between its blanks, from left to right, each as long as can be. -/
inductive HasWords : List Char → List (List Char) → Prop where
  | nil : HasWords [] []
  | blank {c s ws} (hc : isBlank c = true) (h : HasWords s ws) : HasWords (c :: s) ws
  | word {w s ws} (hw : IsRun w) (hs : ∀ c ∈ s.head?, isBlank c = true) (h : HasWords s ws) :
      HasWords (w ++ s) (w :: ws)

/-- The only blanks of the text are single spaces inside of it. -/
structure IsLine (s : List Char) : Prop where
  space : ∀ c ∈ s, isBlank c = true → c = ' '
  head : ∀ c ∈ s.head?, isBlank c = false
  last : ∀ c ∈ s.getLast?, isBlank c = false
  single : s.IsChain fun c d => ¬ (isBlank c = true ∧ isBlank d = true)

variable {c : Char} {s w : List Char} {ws : List (List Char)}

/-! ### The words of a text -/

theorem words_cons_blank (hc : isBlank c = true) (s : List Char) : words (c :: s) = words s := by
  rw [words, cutWhere, if_pos hc]
  rfl

theorem words_run_append (hw : IsRun w) (hs : ∀ c ∈ s.head?, isBlank c = true) :
    words (w ++ s) = w :: words s := by
  have hcut : w.splitOnP isBlank = [w] :=
    List.splitOnP_eq_singleton fun c hc => by simp [hw.solid c hc]
  have hfilter : [w].filter (!·.isEmpty) = [w] := by simp [hw.nonempty]
  cases s with
  | nil =>
    rw [List.append_nil, words, cutWhere_eq_splitOnP, hcut, hfilter]
    rfl
  | cons c s =>
    have hc := hs c rfl
    rw [words_cons_blank hc, words, cutWhere_eq_splitOnP, List.splitOnP_append_cons w s hc, hcut,
      List.filter_append, hfilter, ← cutWhere_eq_splitOnP]
    rfl

theorem HasWords.eq_words (h : HasWords s ws) : ws = words s := by
  induction h with
  | nil => rfl
  | blank hc _ ih => rw [words_cons_blank hc, ih]
  | word hw hs _ ih => rw [words_run_append hw hs, ih]

theorem hasWords_words (s : List Char) : HasWords s (words s) := by
  -- By the length of the text, since a word takes a run of it at once.
  induction hlen : s.length using Nat.strong_induction_on generalizing s with
  | _ k ih =>
    subst hlen
    cases s with
    | nil => exact .nil
    | cons c s =>
      cases hc : isBlank c with
      | true =>
        rw [words_cons_blank hc]
        exact .blank hc (ih _ (Nat.lt_succ_self _) s rfl)
      | false =>
        have hw : IsRun (c :: s.takeWhile (!isBlank ·)) := by
          refine ⟨List.cons_ne_nil _ _, List.forall_mem_cons.2 ⟨hc, fun d hd => ?_⟩⟩
          simpa using List.mem_takeWhile_imp hd
        have hs : ∀ d ∈ (s.dropWhile (!isBlank ·)).head?, isBlank d = true := by
          intro d hd
          have hnot := List.head?_dropWhile_not (!isBlank ·) s
          rw [Option.mem_def.1 hd] at hnot
          simpa using hnot
        have hrest := ih _ (Nat.lt_succ_of_le (List.length_dropWhile_le _ _))
          (s.dropWhile (!isBlank ·)) rfl
        have h := HasWords.word hw hs hrest
        rw [← words_run_append hw hs] at h
        rwa [List.cons_append, List.takeWhile_append_dropWhile] at h

/-- Every text has one sequence of words. -/
theorem hasWords_iff : HasWords s ws ↔ ws = words s := by
  constructor
  · exact HasWords.eq_words
  · rintro rfl
    exact hasWords_words s

theorem HasWords.isRun (h : HasWords s ws) : ∀ w ∈ ws, IsRun w := by
  induction h with
  | nil => simp
  | blank _ _ ih => exact ih
  | word hw _ _ ih => exact List.forall_mem_cons.2 ⟨hw, ih⟩

/-! ### Words on a line -/

theorem IsRun.isLine (hw : IsRun w) : IsLine w where
  space c hc hblank := by simp [hw.solid c hc] at hblank
  head c hc := hw.solid c (List.mem_of_head? hc)
  last c hc := hw.solid c (List.mem_of_getLast? hc)
  single := List.Pairwise.isChain
    (List.pairwise_of_forall_mem_list fun c hc _ _ hboth => by simp [hw.solid c hc] at hboth)

theorem IsLine.word_space (hw : IsRun w) (hs : IsLine s) (hne : s ≠ []) :
    IsLine (w ++ ' ' :: s) where
  space c hc hblank := by
    rcases List.mem_append.1 hc with hc | hc
    · exact hw.isLine.space c hc hblank
    · rcases List.mem_cons.1 hc with rfl | hc
      · rfl
      · exact hs.space c hc hblank
  head c hc := by
    rw [List.head?_append_of_ne_nil _ hw.nonempty] at hc
    exact hw.isLine.head c hc
  last c hc := by
    rw [List.getLast?_append_of_ne_nil _ (List.cons_ne_nil _ _),
      List.getLast?_cons_of_ne_nil hne] at hc
    exact hs.last c hc
  single := by
    refine hw.isLine.single.append (hs.single.cons fun c hc hboth => ?_) fun c hc d hd hboth => ?_
    · simp [hs.head c hc] at hboth
    · simp [hw.isLine.last c hc] at hboth

/-- Words with a space between them make a line. -/
theorem isLine_joined (h : ∀ w ∈ ws, IsRun w) : IsLine (joined [' '] ws) := by
  induction ws with
  | nil => exact ⟨by simp [joined], by simp [joined], by simp [joined], .nil⟩
  | cons w ws ih =>
    obtain ⟨hw, h⟩ := List.forall_mem_cons.1 h
    cases ws with
    | nil => exact hw.isLine
    | cons v ws =>
      obtain ⟨c, v', rfl⟩ := List.exists_cons_of_ne_nil (h v List.mem_cons_self).nonempty
      have hne : joined [' '] ((c :: v') :: ws) ≠ [] := by
        cases ws <;> simp [joined]
      rw [joined_cons (List.cons_ne_nil _ _), List.append_assoc]
      exact .word_space hw (ih h) hne

/-- What stands behind the words of a text does not matter, nor do blanks before them. -/
theorem HasWords.joined_eq (h : HasWords s ws) (hspace : ∀ c ∈ s, isBlank c = true → c = ' ')
    (hlast : ∀ c ∈ s.getLast?, isBlank c = false)
    (hsingle : s.IsChain fun c d => ¬ (isBlank c = true ∧ isBlank d = true)) :
    joined [' '] ws = trimStart s := by
  induction h with
  | nil => rfl
  | @blank c s ws hc _ ih =>
    have hne : s ≠ [] := by
      rintro rfl
      simp [hlast c rfl] at hc
    rw [List.getLast?_cons_of_ne_nil hne] at hlast
    rw [ih (List.forall_mem_cons.1 hspace).2 hlast hsingle.tail, trimStart, trimStart,
      List.dropWhile_cons_of_pos hc]
  | @word w s ws hw hs h ih =>
    have htrim : trimStart (w ++ s) = w ++ s := by
      refine dropWhile_eq_self fun c hc => ?_
      rw [List.head?_append_of_ne_nil _ hw.nonempty] at hc
      exact hw.solid c (List.mem_of_head? hc)
    rw [htrim]
    cases s with
    | nil =>
      obtain rfl : ws = [] := h.eq_words
      exact (List.append_nil w).symm
    | cons c s =>
      -- one space, and then the next word
      have hc := hs c rfl
      obtain rfl := hspace c (List.mem_append_right w List.mem_cons_self) hc
      rw [List.getLast?_append_of_ne_nil _ (List.cons_ne_nil _ _)] at hlast
      have hline := hsingle.right_of_append
      have hstart : trimStart (' ' :: s) = s := by
        rw [trimStart, List.dropWhile_cons_of_pos hc]
        refine dropWhile_eq_self fun d hd => ?_
        by_contra hd'
        exact (List.isChain_cons.1 hline).1 d hd ⟨hc, by simpa using hd'⟩
      have hs' := ih (fun d hd => hspace d (List.mem_append_right w hd)) hlast hline
      rw [hstart] at hs'
      have hne : s ≠ [] := by
        rintro rfl
        simp [hlast ' ' rfl] at hc
      have hws : ws ≠ [] := by
        rintro rfl
        exact hne hs'.symm
      rw [joined_cons hws, hs', List.append_assoc]
      rfl

/-- A line is what its own words make. -/
theorem joined_words_of_isLine (h : IsLine s) : joined [' '] (words s) = s := by
  rw [(hasWords_words s).joined_eq h.space h.last h.single]
  exact dropWhile_eq_self h.head

end RecordLayer.Text
