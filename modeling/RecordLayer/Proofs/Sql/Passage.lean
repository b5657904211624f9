import RecordLayer.Proofs.Sql.Reading

/-!
# Passing along a text

A text is passed from the left: a span, a pair of colons and a parameter as a whole, and everything
else one character at a time (`passage_induction`).  For what the text is filled to (`filled`), and
for the spans that it has (`spansFrom`), there is one equation for each of these steps.  So a word
need not be told from other characters, although the scanner takes all of it at once: behind its
first character, the rest of it is passed in the same way (`tokensFrom_run`).
-/

namespace RecordLayer.Sql
open Text

/-- The text with its parameters filled, `n` values being bound already. -/
def filled (params : Params) (dialect : Dialect) (n : Nat) (afterWord : Bool) (s : List Char) :
    Except Failure (List Char × List Value) :=
  fill params dialect n (piecesOf (tokensFrom afterWord s))

/-- The token is a span. -/
def Token.isSpan : Token → Bool
  | quoted _ | comment _ => true
  | word _ | symbol _    => false

/-- The spans of a text that stands behind a word character or not, from left to right. -/
def spansFrom (afterWord : Bool) (s : List Char) : List Token :=
  (tokensFrom afterWord s).filter Token.isSpan

/-- The colon is neither of a pair nor of a parameter. -/
def IsLone (c : Char) (s : List Char) : Prop :=
  c = ':' → ∀ d ∈ s.head?, d ≠ ':' ∧ isWordStart d = false

/-- Induction over a text as its parameters are looked for. -/
@[elab_as_elim]
theorem passage_induction {motive : Bool → List Char → Prop}
    (nil : ∀ afterWord, motive afterWord [])
    (span : ∀ afterWord span s, IsSpan afterWord span s → motive (span.getLast?.any isWordChar) s →
      motive afterWord (span ++ s))
    (pair : ∀ afterWord s, motive false s → motive afterWord (':' :: ':' :: s))
    (param : ∀ afterWord name s, isIdentifier name = true → EndsWord s → motive true s →
      motive afterWord (':' :: name ++ s))
    (char : ∀ afterWord c s, enclosed? afterWord c s = none → IsLone c s →
      motive (isWordChar c) s → motive afterWord (c :: s))
    (afterWord : Bool) (s : List Char) : motive afterWord s := by
  -- By the length of the text, since a span and a parameter are several characters.
  induction hlen : s.length using Nat.strong_induction_on generalizing afterWord s with
  | _ k ih =>
    subst hlen
    have shorter : ∀ {rest} after, rest.length < s.length → motive after rest :=
      fun after hlt => ih _ hlt after _ rfl
    cases s with
    | nil => exact nil afterWord
    | cons c s =>
      have htail := shorter (isWordChar c) (Nat.lt_succ_self s.length)
      cases hspan : enclosed? afterWord c s with
      | some found =>
        obtain ⟨t, rest⟩ := found
        have hlt := length_firstToken_lt afterWord c s
        rw [firstToken, hspan] at hlt
        rw [← (enclosed?_append hspan).1]
        exact span _ _ _ (isSpan_of_enclosed? hspan) (shorter _ hlt)
      | none =>
        by_cases hlone : IsLone c s
        · exact char _ _ _ hspan hlone htail
        · simp only [IsLone, Classical.not_imp, not_forall] at hlone
          obtain ⟨rfl, d, hd, hopens⟩ := hlone
          obtain ⟨s, rfl⟩ := List.head?_eq_some_iff.1 hd
          by_cases hd : d = ':'
          · subst hd
            exact pair _ _ (shorter false (Nat.lt_succ_of_lt (Nat.lt_succ_self _)))
          · have hstart : isWordStart d = true := by simpa [hd] using hopens
            have hname := isIdentifier_takeWhile hstart s
            have hrest : (s.dropWhile isWordChar).length < (':' :: d :: s).length :=
              Nat.lt_succ_of_lt (Nat.lt_succ_of_le (List.length_dropWhile_le _ _))
            have hparam := param afterWord _ _ hname (endsWord_dropWhile s) (shorter true hrest)
            rwa [List.cons_append, List.cons_append, List.takeWhile_append_dropWhile] at hparam

/-! ### Runs of word characters -/

section
variable {afterWord : Bool} {c : Char} {s span : List Char}

theorem enclosed?_colon (afterWord : Bool) (s : List Char) : enclosed? afterWord ':' s = none := by
  simp [enclosed?]

/-- Behind a word character, the rest of its word is taken one character at a time. -/
theorem tokensFrom_run (s : List Char) : tokensFrom true s =
    (s.takeWhile isWordChar).map .symbol ++ tokensFrom true (s.dropWhile isWordChar) := by
  induction s with
  | nil => rfl
  | cons c s ih =>
    cases hc : isWordChar c with
    | true =>
      have hspan := enclosed?_of_isPlain (isPlain_of_isWordChar hc) true s
      rw [tokensFrom_symbol hspan (by simp), hc, ih, List.takeWhile_cons_of_pos hc,
        List.dropWhile_cons_of_pos hc]
      rfl
    | false =>
      rw [List.takeWhile_cons_of_neg (by simp [hc]), List.dropWhile_cons_of_neg (by simp [hc])]
      rfl

/-- Where no span begins, the scanner takes a single character or a word. -/
theorem tokensFrom_of_enclosed?_eq_none (h : enclosed? afterWord c s = none) :
    tokensFrom afterWord (c :: s) = .symbol c :: tokensFrom (isWordChar c) s ∨
      isWordChar c = true ∧ tokensFrom afterWord (c :: s) = .word (c :: s.takeWhile isWordChar) ::
        tokensFrom true (s.dropWhile isWordChar) := by
  by_cases hword : isWordStart c = true ∧ afterWord = false
  · obtain ⟨hstart, rfl⟩ := hword
    have htokens := tokensFrom_word (isIdentifier_takeWhile hstart s) (endsWord_dropWhile s)
    rw [List.cons_append, List.takeWhile_append_dropWhile] at htokens
    exact .inr ⟨isWordChar_of_isWordStart hstart, htokens⟩
  · exact .inl (tokensFrom_symbol h hword)

/-! ### The spans of a text -/

theorem isSpan_spanToken (span : List Char) : (spanToken span).isSpan = true := by
  rw [spanToken]
  split <;> rfl

theorem spansFrom_nil : spansFrom afterWord [] = [] := by
  rw [spansFrom, tokensFrom, List.filter_nil]

theorem spansFrom_span (h : IsSpan afterWord span s) : spansFrom afterWord (span ++ s) =
    spanToken span :: spansFrom (span.getLast?.any isWordChar) s := by
  rw [spansFrom, tokensFrom_span h, List.filter_cons_of_pos (isSpan_spanToken span), spansFrom]

/-- A character that begins no span leaves the spans as they are. -/
theorem spansFrom_char (h : enclosed? afterWord c s = none) :
    spansFrom afterWord (c :: s) = spansFrom (isWordChar c) s := by
  have hsymbols : ∀ w : List Char, (w.map Token.symbol).filter Token.isSpan = [] := fun w =>
    List.filter_eq_nil_iff.2 fun t ht => by
      obtain ⟨d, -, rfl⟩ := List.mem_map.1 ht
      exact Bool.false_ne_true
  rcases tokensFrom_of_enclosed?_eq_none h with htokens | ⟨hc, htokens⟩
  · rw [spansFrom, htokens, List.filter_cons_of_neg Bool.false_ne_true, spansFrom]
  · rw [spansFrom, htokens, List.filter_cons_of_neg Bool.false_ne_true, hc, spansFrom,
      tokensFrom_run s, List.filter_append, hsymbols, List.nil_append]

/-- A parameter leaves the spans as they are. -/
theorem spansFrom_param {name : List Char} (hname : isIdentifier name = true) (hs : EndsWord s) :
    spansFrom afterWord (':' :: name ++ s) = spansFrom true s := by
  rw [spansFrom, tokensFrom_param hname hs, List.filter_cons_of_neg Bool.false_ne_true,
    List.filter_cons_of_neg Bool.false_ne_true, spansFrom]

/-! ### The text with its parameters filled -/

variable {params : Params} {dialect : Dialect} {n : Nat}

/-- Text before what the rest is filled to. -/
def keep (content : List Char) (rest : List Char × List Value) : List Char × List Value :=
  (content ++ rest.1, rest.2)

theorem exists_of_map_eq_ok {ε α β : Type} {f : α → β} {x : Except ε α} {b : β}
    (h : x.map f = .ok b) : ∃ a, x = .ok a ∧ f a = b := by
  cases x with
  | error e => cases h
  | ok a => exact ⟨a, rfl, Except.ok.inj h⟩

theorem fill_text (content : List Char) (ps : List Piece) :
    fill params dialect n (.text content :: ps) =
      (fill params dialect n ps).map (keep content) := by
  rw [fill]
  cases fill params dialect n ps <;> rfl

theorem filled_nil : filled params dialect n afterWord [] = .ok ([], []) := by
  rw [filled, tokensFrom]
  rfl

theorem filled_span (h : IsSpan afterWord span s) :
    filled params dialect n afterWord (span ++ s) =
      (filled params dialect n (span.getLast?.any isWordChar) s).map (keep span) := by
  have hcolon : spanToken span ≠ .symbol ':' := by
    intro heq
    have hspan := isSpan_spanToken span
    rw [heq] at hspan
    exact Bool.false_ne_true hspan
  rw [filled, tokensFrom_span h, piecesOf_cons hcolon, text_spanToken, fill_text, filled]

theorem filled_pair : filled params dialect n afterWord (':' :: ':' :: s) =
    (filled params dialect n false s).map (keep [':', ':']) := by
  rw [filled, piecesOf_pair, fill_text, filled]

theorem filled_param {name : List Char} (hname : isIdentifier name = true) (hs : EndsWord s) :
    filled params dialect n afterWord (':' :: name ++ s) =
      match params.get? (.ofList name) with
      | none => .error (.missingParam (.ofList name))
      | some v => (filled params dialect (n + 1) true s).map fun rest =>
          ((slot dialect (n + 1) v).toList ++ rest.1, v :: rest.2) := by
  rw [filled, tokensFrom_param hname hs, piecesOf, fill]
  cases params.get? (.ofList name) with
  | none => rfl
  | some v =>
    simp only [filled]
    cases fill params dialect (n + 1) (piecesOf (tokensFrom true s)) <;> rfl

/-- Behind a word character, the rest of its word is kept. -/
theorem filled_run (s : List Char) : filled params dialect n true s =
    (filled params dialect n true (s.dropWhile isWordChar)).map
      (keep (s.takeWhile isWordChar)) := by
  induction s with
  | nil => rw [List.dropWhile_nil, filled_nil]; rfl
  | cons c s ih =>
    cases hc : isWordChar c with
    | true =>
      have hspan := enclosed?_of_isPlain (isPlain_of_isWordChar hc) true s
      have hcolon : c ≠ ':' := by
        rintro rfl
        exact absurd hc (by decide)
      rw [List.takeWhile_cons_of_pos hc, List.dropWhile_cons_of_pos hc, filled,
        piecesOf_symbol hspan (by simp) hcolon, fill_text, hc, ← filled, ih]
      cases filled params dialect n true (s.dropWhile isWordChar) <;> rfl
    | false =>
      rw [List.takeWhile_cons_of_neg (by simp [hc]), List.dropWhile_cons_of_neg (by simp [hc])]
      cases filled params dialect n true (c :: s) <;> rfl

/-- A character that begins nothing is kept. -/
theorem filled_char (h : enclosed? afterWord c s = none) (hlone : IsLone c s) :
    filled params dialect n afterWord (c :: s) =
      (filled params dialect n (isWordChar c) s).map (keep [c]) := by
  by_cases hc : c = ':'
  · subst hc
    rw [filled, piecesOf_lone (hlone rfl), fill_text]
    rfl
  · by_cases hword : isWordStart c = true ∧ (!afterWord) = true
    · obtain ⟨hstart, hafter⟩ := hword
      obtain rfl : afterWord = false := by simpa using hafter
      rw [filled, piecesOf_word h hstart, fill_text, isWordChar_of_isWordStart hstart,
        filled_run s, ← filled]
      cases filled params dialect n true (s.dropWhile isWordChar) <;> rfl
    · rw [filled, piecesOf_symbol h hword hc, fill_text, ← filled]

end

end RecordLayer.Sql
