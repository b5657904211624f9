import RecordLayer.Proofs.Sql.Template

/-!
# Reading a text

`Reads` says what it is to read a text from the left, past closed spans, words and single
characters, to a place that is outside of all of them.  What follows the place is looked at where a
span, a word or a character ends, and so it belongs to the statement.

The scanner reads texts so: its tokens up to such a place are the ones that are read
(`tokensFrom_of_reads`), and wherever more follows it has read what stands before
(`reads_of_tokensFrom`).  At a semicolon, or where the text ends, it does not matter what follows
(`Reads.change`).
-/

namespace RecordLayer.Sql
open Text

/-! ### Closed spans -/

/-- A span that is closed, and a text that may follow it.  A line comment is closed by a newline. -/
inductive IsClosed (afterWord : Bool) : List Char → List Char → Prop where
  | quoted {quote content rest} (hquote : IsQuote quote) (hcontent : Paired quote content)
      (hrest : rest.head? ≠ some quote) : IsClosed afterWord (quote :: (content ++ [quote])) rest
  | lineComment {content rest} (hcontent : '\n' ∉ content) :
      IsClosed afterWord ('-' :: '-' :: content) ('\n' :: rest)
  | comment {content rest} (hcontent : EndsAt ['*', '/'] content) :
      IsClosed afterWord ('/' :: '*' :: (content ++ ['*', '/'])) rest
  | body {tag content rest} (hafter : afterWord = false) (htag : IsTag tag)
      (hcontent : EndsAt (dollarMark tag) content) :
      IsClosed afterWord (dollarMark tag ++ (content ++ dollarMark tag)) rest

section
variable {afterWord : Bool} {span rest : List Char}

theorem IsClosed.isSpan (h : IsClosed afterWord span rest) : IsSpan afterWord span rest := by
  cases h with
  | quoted hquote hcontent hrest => exact .quoted hquote hcontent hrest
  | lineComment hcontent => exact .lineComment hcontent (by simp)
  | comment hcontent => exact .comment hcontent
  | body hafter htag hcontent => exact .body hafter htag hcontent

/-- A span that the text goes on behind is closed. -/
theorem IsSpan.isClosed (h : IsSpan afterWord span rest) (hrest : rest ≠ []) :
    IsClosed afterWord span rest := by
  cases h with
  | quoted hquote hcontent hrest => exact .quoted hquote hcontent hrest
  | openQuoted => exact absurd rfl hrest
  | @lineComment content rest hcontent hnewline =>
    cases rest with
    | nil => exact absurd rfl hrest
    | cons c rest =>
      obtain rfl := hnewline c rfl
      exact .lineComment hcontent
  | comment hcontent => exact .comment hcontent
  | openComment => exact absurd rfl hrest
  | body hafter htag hcontent => exact .body hafter htag hcontent
  | openBody => exact absurd rfl hrest

end

/-- The text begins with a mark that opens a comment. -/
def BeginsComment (s : List Char) : Prop :=
  ['-', '-'] <+: s ∨ ['/', '*'] <+: s

instance : DecidablePred BeginsComment := fun s =>
  inferInstanceAs (Decidable (['-', '-'] <+: s ∨ ['/', '*'] <+: s))

/-- The token of a span. -/
def spanToken (span : List Char) : Token :=
  if BeginsComment span then .comment span else .quoted span

@[simp] theorem text_spanToken (span : List Char) : (spanToken span).text = span := by
  rw [spanToken]
  split <;> rfl

theorem not_beginsComment_cons {c : Char} (h : c ≠ '-' ∧ c ≠ '/') (s : List Char) :
    ¬ BeginsComment (c :: s) := by
  rintro (⟨t, ht⟩ | ⟨t, ht⟩)
  · exact h.1 (List.cons.inj ht).1.symm
  · exact h.2 (List.cons.inj ht).1.symm

/-- The scanner tells comments from quoted text. -/
theorem eq_spanToken_of_enclosed? {afterWord : Bool} {c : Char} {s rest : List Char} {t : Token}
    (h : enclosed? afterWord c s = some (t, rest)) : t = spanToken t.text := by
  rw [enclosed?] at h
  split at h
  · rename_i hquote
    cases h
    refine (if_neg (not_beginsComment_cons ?_ _)).symm
    rcases hquote with rfl | rfl | rfl <;> decide
  · split at h
    · rename_i hdash
      cases h
      obtain ⟨rfl, hdash⟩ := hdash
      cases s with
      | nil => cases hdash
      | cons d s =>
        cases hdash
        exact (if_pos (.inl ⟨_, rfl⟩)).symm
    · split at h
      · rename_i hstar
        cases h
        obtain ⟨rfl, -⟩ := hstar
        exact (if_pos (.inr ⟨_, rfl⟩)).symm
      · split at h
        · obtain ⟨⟨mark, s'⟩, hmark, heq⟩ := Option.map_eq_some_iff.1 h
          cases heq
          obtain ⟨tag, -, rfl⟩ := of_dollarMark? hmark
          exact (if_neg (not_beginsComment_cons (by decide) _)).symm
        · cases h

/-! ### Reading -/

/-- The tokens are what is read of their text where it stands before another one, behind a word
character or not. -/
inductive Reads : Bool → List Token → List Char → Prop where
  | nil (afterWord rest) : Reads afterWord [] rest
  | span {afterWord span ts rest} (hspan : IsClosed afterWord span (textOf ts ++ rest))
      (h : Reads (span.getLast?.any isWordChar) ts rest) :
      Reads afterWord (spanToken span :: ts) rest
  | word {word ts rest} (hword : isIdentifier word = true) (hends : EndsWord (textOf ts ++ rest))
      (h : Reads true ts rest) : Reads false (.word word :: ts) rest
  | symbol {afterWord c ts rest} (hspan : ¬ BeginsSpan afterWord (c :: (textOf ts ++ rest)))
      (hword : ¬ (isWordStart c = true ∧ afterWord = false)) (h : Reads (isWordChar c) ts rest) :
      Reads afterWord (.symbol c :: ts) rest

theorem textOf_nil : textOf [] = [] := rfl

theorem textOf_cons (t : Token) (ts : List Token) : textOf (t :: ts) = t.text ++ textOf ts :=
  List.flatMap_cons

theorem textOf_append (ts us : List Token) : textOf (ts ++ us) = textOf ts ++ textOf us :=
  List.flatMap_append

theorem textOf_append_symbol (ts us : List Token) (c : Char) :
    textOf (ts ++ .symbol c :: us) = textOf ts ++ c :: textOf us := by
  rw [textOf_append, textOf_cons]
  rfl

section
variable {afterWord : Bool} {c : Char} {s span rest : List Char} {t : Token} {ts us : List Token}

theorem tokensFrom_span (h : IsSpan afterWord span s) : tokensFrom afterWord (span ++ s) =
    spanToken span :: tokensFrom (span.getLast?.any isWordChar) s := by
  obtain ⟨c, s', t, hs, hfound, rfl⟩ := enclosed?_of_isSpan h
  have hfirst : firstToken afterWord c s' = (t, s) := by rw [firstToken, hfound]
  rw [hs, tokensFrom]
  simp only [hfirst]
  rw [← eq_spanToken_of_enclosed? hfound]

theorem tokensFrom_symbol (h : enclosed? afterWord c s = none)
    (hword : ¬ (isWordStart c = true ∧ afterWord = false)) :
    tokensFrom afterWord (c :: s) = .symbol c :: tokensFrom (isWordChar c) s := by
  rw [tokensFrom, firstToken_symbol h (by simpa using hword)]
  rfl

theorem tokensFrom_semicolon (afterWord : Bool) (s : List Char) :
    tokensFrom afterWord (';' :: s) = .symbol ';' :: tokensFrom false s :=
  tokensFrom_symbol (enclosed?_of_isPlain (by decide) _ _) (by simp [isWordStart])

/-- The scanner finds a span where one begins. -/
theorem beginsSpan_iff : BeginsSpan afterWord (c :: s) ↔
    (enclosed? afterWord c s).isSome = true := by
  constructor
  · intro hspan
    by_contra hnone
    exact not_beginsSpan_of_enclosed? (Option.not_isSome_iff_eq_none.1 hnone) hspan
  · intro hsome
    obtain ⟨⟨t, rest⟩, hfound⟩ := Option.isSome_iff_exists.1 hsome
    exact ⟨t.text, rest, (enclosed?_append hfound).1.symm, isSpan_of_enclosed? hfound⟩

/-- Where no span and no word begins, the scanner takes a single character. -/
theorem tokensFrom_single (hspan : ¬ BeginsSpan afterWord (c :: s))
    (hword : ¬ (isWordStart c = true ∧ afterWord = false)) :
    tokensFrom afterWord (c :: s) = .symbol c :: tokensFrom (isWordChar c) s :=
  tokensFrom_symbol (Option.not_isSome_iff_eq_none.1 (mt beginsSpan_iff.2 hspan)) hword

/-- What is read is what the scanner finds. -/
theorem tokensFrom_of_reads (h : Reads afterWord ts rest) : ∃ afterWord',
    tokensFrom afterWord (textOf ts ++ rest) = ts ++ tokensFrom afterWord' rest := by
  induction h with
  | nil afterWord rest => exact ⟨afterWord, rfl⟩
  | span hspan _ ih =>
    obtain ⟨afterWord', ih⟩ := ih
    refine ⟨afterWord', ?_⟩
    rw [textOf_cons, text_spanToken, List.append_assoc, tokensFrom_span hspan.isSpan, ih,
      List.cons_append]
  | word hword hends _ ih =>
    obtain ⟨afterWord', ih⟩ := ih
    refine ⟨afterWord', ?_⟩
    rw [textOf_cons, Token.text, List.append_assoc, tokensFrom_word hword hends, ih,
      List.cons_append]
  | symbol hspan hword _ ih =>
    obtain ⟨afterWord', ih⟩ := ih
    refine ⟨afterWord', ?_⟩
    rw [textOf_cons, Token.text, List.append_assoc, List.singleton_append,
      tokensFrom_single hspan hword, ih, List.cons_append]

/-- The scanner takes a span, a word that is as long as can be, or a single character. -/
theorem firstToken_cases (afterWord : Bool) (c : Char) (s : List Char) :
    (∃ span rest, firstToken afterWord c s = (spanToken span, rest) ∧
      IsSpan afterWord span rest) ∨
    (∃ word rest, firstToken afterWord c s = (.word word, rest) ∧ afterWord = false ∧
      isIdentifier word = true ∧ EndsWord rest) ∨
    (firstToken afterWord c s = (.symbol c, s) ∧ ¬ BeginsSpan afterWord (c :: s) ∧
      ¬ (isWordStart c = true ∧ afterWord = false)) := by
  cases hfound : enclosed? afterWord c s with
  | some found =>
    obtain ⟨t, rest⟩ := found
    refine .inl ⟨t.text, rest, ?_, isSpan_of_enclosed? hfound⟩
    rw [firstToken, hfound, ← eq_spanToken_of_enclosed? hfound]
  | none =>
    by_cases hword : isWordStart c = true ∧ (!afterWord) = true
    · refine .inr (.inl ⟨c :: s.takeWhile isWordChar, s.dropWhile isWordChar, ?_, ?_,
        isIdentifier_takeWhile hword.1 s, endsWord_dropWhile s⟩)
      · rw [firstToken, hfound]
        exact if_pos hword
      · simpa using hword.2
    · exact .inr (.inr ⟨firstToken_symbol hfound hword, not_beginsSpan_of_enclosed? hfound,
        by simpa using hword⟩)

/-- Induction over a text as it is read. -/
@[elab_as_elim]
theorem tokensFrom_induction {motive : Bool → List Char → Prop}
    (nil : ∀ afterWord, motive afterWord [])
    (span : ∀ afterWord span s, IsSpan afterWord span s → motive (span.getLast?.any isWordChar) s →
      motive afterWord (span ++ s))
    (word : ∀ word s, isIdentifier word = true → EndsWord s → motive true s →
      motive false (word ++ s))
    (symbol : ∀ afterWord c s, ¬ BeginsSpan afterWord (c :: s) →
      ¬ (isWordStart c = true ∧ afterWord = false) → motive (isWordChar c) s →
      motive afterWord (c :: s))
    (afterWord : Bool) (s : List Char) : motive afterWord s := by
  fun_induction tokensFrom afterWord s with
  | case1 afterWord => exact nil afterWord
  | case2 afterWord c s first ih =>
    have ih : motive ((firstToken afterWord c s).1.text.getLast?.any isWordChar)
      (firstToken afterWord c s).2 := ih
    have happend := (firstToken_append afterWord c s).1
    rcases firstToken_cases afterWord c s with ⟨inside, rest, hfirst, hspan⟩ |
      ⟨letters, rest, hfirst, rfl, hword, hends⟩ | ⟨hfirst, hspan, hword⟩
    · rw [hfirst, text_spanToken] at happend ih
      rw [← happend]
      exact span afterWord inside rest hspan ih
    · rw [hfirst, Token.text] at happend ih
      rw [getLast?_any_of_isIdentifier hword] at ih
      rw [← happend]
      exact word letters rest hword hends ih
    · rw [hfirst, Token.text] at ih
      exact symbol afterWord c s hspan hword ih

/-- What the scanner takes first is read, if what is behind it is. -/
theorem reads_firstToken (hrest : (firstToken afterWord c s).2 = textOf ts ++ rest)
    (hne : textOf ts ++ rest ≠ [])
    (h : Reads ((firstToken afterWord c s).1.text.getLast?.any isWordChar) ts rest) :
    Reads afterWord ((firstToken afterWord c s).1 :: ts) rest := by
  rcases firstToken_cases afterWord c s with ⟨span, rest', hfirst, hspan⟩ |
    ⟨word, rest', hfirst, rfl, hword, hends⟩ | ⟨hfirst, hspan, hword⟩
  · rw [hfirst] at hrest h ⊢
    obtain rfl : rest' = textOf ts ++ rest := hrest
    rw [text_spanToken] at h
    exact .span (hspan.isClosed hne) h
  · rw [hfirst] at hrest h ⊢
    obtain rfl : rest' = textOf ts ++ rest := hrest
    rw [Token.text, getLast?_any_of_isIdentifier hword] at h
    exact .word hword hends h
  · rw [hfirst] at hrest h ⊢
    obtain rfl : s = textOf ts ++ rest := hrest
    exact .symbol hspan hword h

/-- Where more tokens follow, those before them are read. -/
theorem reads_of_tokensFrom (h : tokensFrom afterWord s = ts ++ us) (hus : us ≠ []) :
    Reads afterWord ts (textOf us) := by
  induction ts generalizing afterWord s with
  | nil => exact .nil _ _
  | cons t ts ih =>
    cases s with
    | nil =>
      rw [tokensFrom] at h
      cases h
    | cons c s =>
      rw [tokensFrom, List.cons_append] at h
      obtain ⟨rfl, htail⟩ := List.cons.inj h
      have hrest : (firstToken afterWord c s).2 = textOf ts ++ textOf us := by
        rw [← textOf_append, ← htail, textOf_tokensFrom]
      refine reads_firstToken hrest ?_ (ih htail)
      intro hnil
      rw [← hrest] at hnil
      rw [hnil, tokensFrom] at htail
      exact hus (List.append_eq_nil_iff.1 htail.symm).2

end

/-! ### What follows -/

/-- A semicolon or a blank: neither begins anything, and whatever stands before it ends there. -/
def isBreak (c : Char) : Bool :=
  c == ';' || isBlank c

/-- The text is at its end, at a semicolon or at a blank. -/
def AtBreak (rest : List Char) : Prop :=
  ∀ c ∈ rest.head?, isBreak c = true

/-- The text is at its end or at a semicolon. -/
def AtCut (rest : List Char) : Prop :=
  ∀ c ∈ rest.head?, c = ';'

theorem atBreak_nil : AtBreak [] := by
  simp [AtBreak]

theorem atBreak_cons {c : Char} (h : isBreak c = true) (s : List Char) : AtBreak (c :: s) := by
  intro d hd
  obtain rfl := Option.some.inj hd
  exact h

theorem atBreak_newline : AtBreak ['\n'] :=
  atBreak_cons (by decide) []

theorem atBreak_of_breaks {w : List Char} (h : ∀ c ∈ w, isBreak c = true) : AtBreak w :=
  fun c hc => h c (List.mem_of_head? hc)

theorem AtCut.atBreak {rest : List Char} (h : AtCut rest) : AtBreak rest := by
  intro c hc
  rw [h c hc]
  rfl

theorem atCut_nil : AtCut [] := by
  simp [AtCut]

theorem atCut_semicolon (s : List Char) : AtCut (';' :: s) := by
  simp [AtCut]

section
variable {c : Char}

theorem isWordChar_of_isBreak (h : isBreak c = true) : isWordChar c = false := by
  by_contra hword
  have hblank := isBlank_of_isWordChar (Bool.not_eq_false _ ▸ hword)
  rw [isBreak, hblank, Bool.or_false, beq_iff_eq] at h
  subst h
  exact hword (by decide)

theorem isWordStart_of_isBreak (h : isBreak c = true) : isWordStart c = false := by
  by_contra hword
  have hchar := isWordChar_of_isWordStart (Bool.not_eq_false _ ▸ hword)
  rw [isWordChar_of_isBreak h] at hchar
  cases hchar

theorem isDigit_of_isBreak (h : isBreak c = true) : c.isDigit = false := by
  by_contra hdigit
  have hword : isWordChar c = true := by
    simp [isWordChar, Char.isAlphanum, Bool.not_eq_false _ ▸ hdigit]
  rw [isWordChar_of_isBreak h] at hword
  cases hword

theorem isPlain_of_isBreak (h : isBreak c = true) : isPlain c = true := by
  simp only [isPlain, Bool.and_eq_true, bne_iff_ne, ne_eq]
  refine ⟨⟨⟨⟨⟨⟨?_, ?_⟩, ?_⟩, ?_⟩, ?_⟩, ?_⟩, ?_⟩ <;> rintro rfl <;> exact absurd h (by decide)

end

section
variable {afterWord : Bool} {c : Char} {s span rest rest' : List Char} {ts us : List Token}

theorem tokensFrom_break (h : isBreak c = true) (afterWord : Bool) (s : List Char) :
    tokensFrom afterWord (c :: s) = .symbol c :: tokensFrom false s := by
  rw [tokensFrom_symbol (enclosed?_of_isPlain (isPlain_of_isBreak h) _ _)
    (by simp [isWordStart_of_isBreak h]), isWordChar_of_isBreak h]

theorem AtBreak.endsWord (h : AtBreak rest) : EndsWord rest := by
  cases rest with
  | nil => rfl
  | cons c rest => exact endsWord_cons (isWordChar_of_isBreak (h c rfl)) rest

theorem AtBreak.head?_append_eq_some_iff (h : AtBreak rest) (hc : isBreak c = false) :
    (s ++ rest).head? = some c ↔ s.head? = some c := by
  cases s with
  | nil =>
    refine iff_of_false ?_ (by simp)
    intro hhead
    rw [h c hhead] at hc
    cases hc
  | cons d s => rfl

theorem AtBreak.endsWord_append_iff (h : AtBreak rest) : EndsWord (s ++ rest) ↔ EndsWord s := by
  cases s with
  | nil => exact iff_of_true h.endsWord endsWord_nil
  | cons c s => rfl

theorem AtBreak.any_isDigit_head?_append (h : AtBreak rest) :
    (s ++ rest).head?.any Char.isDigit = s.head?.any Char.isDigit := by
  cases s with
  | nil =>
    cases rest with
    | nil => rfl
    | cons c rest => exact isDigit_of_isBreak (h c rfl)
  | cons c s => rfl

/-- Whether a span begins before a break does not depend on what follows. -/
theorem AtBreak.beginsSpan_append_iff (h : AtBreak rest) :
    BeginsSpan afterWord (c :: (s ++ rest)) ↔ BeginsSpan afterWord (c :: s) := by
  rw [beginsSpan_iff, beginsSpan_iff, isSome_enclosed?_iff, isSome_enclosed?_iff,
    isSome_dollarMark?_iff, isSome_dollarMark?_iff, h.head?_append_eq_some_iff (by decide),
    h.head?_append_eq_some_iff (by decide), h.any_isDigit_head?_append,
    h.endsWord.dropWhile_append, h.head?_append_eq_some_iff (by decide)]

theorem isBreak_of_isQuote (h : IsQuote c) : isBreak c = false := by
  rcases h with rfl | rfl | rfl <;> decide

/-- A closed span is closed before any break; only a line comment needs its newline. -/
theorem IsClosed.change (h : IsClosed afterWord span (s ++ rest)) (hrest : AtBreak rest)
    (hrest' : AtBreak rest') (hline : rest.head? = some '\n' → rest'.head? = some '\n') :
    IsClosed afterWord span (s ++ rest') := by
  generalize hs : s ++ rest = behind at h
  cases h with
  | @quoted quote content _ hquote hcontent hhead =>
    have hbreak := isBreak_of_isQuote hquote
    rw [← hs, ne_eq, hrest.head?_append_eq_some_iff hbreak] at hhead
    exact .quoted hquote hcontent (mt (hrest'.head?_append_eq_some_iff hbreak).1 hhead)
  | lineComment hcontent =>
    cases s with
    | nil =>
      have hhead : rest.head? = some '\n' := congrArg List.head? hs
      obtain ⟨behind', rfl⟩ := List.head?_eq_some_iff.1 (hline hhead)
      exact .lineComment hcontent
    | cons d s =>
      obtain ⟨rfl, -⟩ := List.cons.inj hs
      exact .lineComment hcontent
  | comment hcontent => exact .comment hcontent
  | body hafter htag hcontent => exact .body hafter htag hcontent

/-- Up to a break, a text is read in the same way whatever follows. -/
theorem Reads.changeBreak (h : Reads afterWord ts (s ++ rest)) (hrest : AtBreak rest)
    (hrest' : AtBreak rest') (hline : rest.head? = some '\n' → rest'.head? = some '\n') :
    Reads afterWord ts (s ++ rest') := by
  generalize hs : s ++ rest = behind at h
  induction h with
  | nil => exact .nil _ _
  | span hspan _ ih =>
    subst hs
    rw [← List.append_assoc] at hspan
    have hspan := hspan.change hrest hrest' hline
    rw [List.append_assoc] at hspan
    exact .span hspan (ih rfl)
  | word hword hends _ ih =>
    subst hs
    rw [← List.append_assoc, hrest.endsWord_append_iff] at hends
    refine .word hword ?_ (ih rfl)
    rwa [← List.append_assoc, hrest'.endsWord_append_iff]
  | symbol hspan hword _ ih =>
    subst hs
    rw [← List.append_assoc, hrest.beginsSpan_append_iff] at hspan
    refine .symbol ?_ hword (ih rfl)
    rwa [← List.append_assoc, hrest'.beginsSpan_append_iff]

/-- At a semicolon or the end, it does not matter for reading what follows. -/
theorem Reads.change (h : Reads afterWord ts rest) (hrest : AtCut rest) (hrest' : AtCut rest') :
    Reads afterWord ts rest' := by
  refine Reads.changeBreak (s := []) h hrest.atBreak hrest'.atBreak ?_
  intro hline
  cases hrest _ hline

/-- What is read up to the end of the text is read up to any break. -/
theorem Reads.ofEnd (h : Reads afterWord ts []) (hrest : AtBreak rest) :
    Reads afterWord ts rest :=
  Reads.changeBreak (s := []) h atBreak_nil hrest (by simp)

/-- What is read before a break and what is read behind it are read together. -/
theorem Reads.append_break (hc : isBreak c = true)
    (h : Reads afterWord ts (c :: (textOf us ++ rest))) (hbehind : Reads false us rest) :
    Reads afterWord (ts ++ .symbol c :: us) rest := by
  have htext : ∀ ts, textOf (ts ++ .symbol c :: us) ++ rest =
      textOf ts ++ c :: (textOf us ++ rest) := by
    intro ts
    rw [textOf_append_symbol, List.append_assoc, List.cons_append]
  generalize hbreak : c :: (textOf us ++ rest) = behind at h
  induction h with
  | nil afterWord =>
    have hspan : enclosed? afterWord c (textOf us ++ rest) = none :=
      enclosed?_of_isPlain (isPlain_of_isBreak hc) _ _
    refine .symbol (not_beginsSpan_of_enclosed? hspan) (by simp [isWordStart_of_isBreak hc]) ?_
    rwa [isWordChar_of_isBreak hc]
  | span hspan _ ih =>
    subst hbreak
    rw [← htext] at hspan
    exact .span hspan (ih rfl)
  | word hword hends _ ih =>
    subst hbreak
    rw [← htext] at hends
    exact .word hword hends (ih rfl)
  | symbol hspan hword _ ih =>
    subst hbreak
    rw [← htext] at hspan
    exact .symbol hspan hword (ih rfl)

/-- What is read up to the end of the text is all that the scanner finds. -/
theorem tokensFrom_textOf (h : Reads afterWord ts []) : tokensFrom afterWord (textOf ts) = ts := by
  obtain ⟨afterWord', htokens⟩ := tokensFrom_of_reads h
  rwa [tokensFrom, List.append_nil, List.append_nil] at htokens

end

end RecordLayer.Sql
