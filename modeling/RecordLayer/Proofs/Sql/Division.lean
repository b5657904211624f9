import RecordLayer.Proofs.Sql.Reading
import RecordLayer.Sql.Script

/-!
# Division of scripts

Where a script is cut into statements is said here on its text alone.  `IsCut` holds of a semicolon
that is in no span and in no block of the statement it ends, `Divided` cuts a script at the first
such semicolon and goes on behind it, and `Says` holds of a piece that has something other than
blanks outside its comments.  The statements of a script are the pieces that say something, without
the blanks around them, and nothing else is left out but comments and blanks (`statements_exact`).

Reading starts anew behind a cut.  A script that ends outside of every span and block may therefore
be continued behind a semicolon, and the statements of the two parts are found on their own
(`statements_append_semicolon`).
-/

namespace RecordLayer.Sql
open Text

/-! ### Cuts of a text -/

/-- The blocks that are open behind one more token. -/
def blocksBehind (depth : Nat) (t : Token) : Nat :=
  if t.opensBlock then depth + 1 else if t.closesBlock then depth - 1 else depth

/-- The blocks that are open behind the tokens of a statement.  Of the tokens that say something the
first does not count, since a leading `BEGIN` is a transaction's. -/
def openBlocks (ts : List Token) : Nat :=
  (ts.filter Token.isCode).tail.foldl blocksBehind 0

/-- Reading a statement from the left, one comes to the semicolon between the two parts of the text,
and no block is open there. -/
def IsCut (before rest : List Char) : Prop :=
  ∃ ts, textOf ts = before ∧ Reads false ts (';' :: rest) ∧ openBlocks ts = 0

/-- The pieces between the cuts of a script. -/
inductive Divided : List Char → List (List Char) → Prop where
  | last {piece} (hnone : ∀ before rest, piece = before ++ ';' :: rest → ¬ IsCut before rest) :
      Divided piece [piece]
  | cut {piece rest pieces} (hcut : IsCut piece rest)
      (hnone : ∀ before after, piece = before ++ ';' :: after →
        ¬ IsCut before (after ++ ';' :: rest))
      (h : Divided rest pieces) : Divided (piece ++ ';' :: rest) (piece :: pieces)

/-! ### What a piece says -/

/-- The span is a comment, and the text may follow it. -/
def IsComment (span rest : List Char) : Prop :=
  BeginsComment span ∧ IsSpan false span rest

/-- The second part of the text begins inside a comment that begins in the first. -/
def InComment (before rest : List Char) : Prop :=
  ∃ ts inside more behind, before = textOf ts ++ inside ∧ rest = more ++ behind ∧ more ≠ [] ∧
    Reads false ts (inside ++ rest) ∧ IsComment (inside ++ more) behind

/-- The text has a character outside its comments that is no ASCII blank. -/
def Says (piece : List Char) : Prop :=
  ∃ before c after, piece = before ++ c :: after ∧ isAsciiBlank c = false ∧
    ¬ InComment before (c :: after)

/-- The text consists of comments and ASCII blanks. -/
inductive IsSilent : List Char → Prop where
  | nil : IsSilent []
  | blank {c s} (hc : isAsciiBlank c = true) (h : IsSilent s) : IsSilent (c :: s)
  | comment {span s} (hspan : IsComment span s) (h : IsSilent s) : IsSilent (span ++ s)

/-! ### Progress -/

theorem blocksBehind_of_not_isCode {t : Token} (h : t.isCode = false) (depth : Nat) :
    blocksBehind depth t = depth := by
  cases t with
  | word w => cases h
  | quoted content => cases h
  | comment content => rfl
  | symbol c => rfl

theorem depth_after {p : Progress} (hcode : p.code = true) (t : Token) :
    (p.after t).depth = blocksBehind p.depth t := by
  rw [Progress.after, blocksBehind, hcode]
  rfl

/-- Once something was said, every block counts. -/
theorem depth_foldl_after {p : Progress} (hcode : p.code = true) (ts : List Token) :
    (ts.foldl Progress.after p).depth =
      (ts.filter Token.isCode).foldl blocksBehind p.depth := by
  induction ts generalizing p with
  | nil => rfl
  | cons t ts ih =>
    have hafter : (p.after t).code = true := by simp [Progress.after, hcode]
    rw [List.foldl_cons, ih hafter, depth_after hcode, List.filter_cons]
    cases ht : t.isCode with
    | false => rw [blocksBehind_of_not_isCode ht, if_neg Bool.false_ne_true]
    | true => rw [if_pos rfl, List.foldl_cons]

/-- The scanner counts the blocks that are open. -/
theorem depth_eq_openBlocks (ts : List Token) :
    (ts.foldl Progress.after .start).depth = openBlocks ts := by
  induction ts with
  | nil => rfl
  | cons t ts ih =>
    rw [List.foldl_cons, openBlocks, List.filter_cons]
    cases ht : t.isCode with
    | false =>
      have hstart : Progress.start.after t = .start := by
        cases t with
        | word w => cases ht
        | quoted content => cases ht
        | comment content => rfl
        | symbol c => simp only [Progress.after, Progress.start, ht]; rfl
      rw [hstart, ih, if_neg Bool.false_ne_true]
      rfl
    | true =>
      have hafter : Progress.start.after t = ⟨0, true⟩ := by
        simp [Progress.after, Progress.start, ht]
      rw [hafter, depth_foldl_after rfl, if_pos rfl]
      rfl

theorem eq_semicolon_of_isCut {p : Progress} {t : Token} (h : p.isCut t = true) :
    t = .symbol ';' ∧ p.depth = 0 := by
  simpa [Progress.isCut, and_comm] using h

/-! ### Stretches -/

/-- None of the tokens ends a statement. -/
def Uncut (p : Progress) (ts : List Token) : Prop :=
  ∀ front t back, ts = front ++ t :: back → (front.foldl Progress.after p).isCut t = false

section
variable {p : Progress} {t : Token} {ts us : List Token}

theorem Uncut.of_cons (h : Uncut p (t :: ts)) : p.isCut t = false ∧ Uncut (p.after t) ts := by
  refine ⟨h [] t ts rfl, ?_⟩
  rintro front t' back rfl
  exact h (t :: front) t' back rfl

theorem uncut_nil (p : Progress) : Uncut p [] := by
  intro front t back h
  cases front <;> cases h

theorem Uncut.cons (ht : p.isCut t = false) (h : Uncut (p.after t) ts) : Uncut p (t :: ts) := by
  intro front t' back heq
  cases front with
  | nil =>
    cases heq
    exact ht
  | cons u front =>
    obtain ⟨rfl, rfl⟩ := List.cons.inj heq
    exact h front t' back rfl

/-- Tokens are uncut, or they have a first cut. -/
theorem uncut_or_cut (p : Progress) (ts : List Token) : Uncut p ts ∨ ∃ front t back,
    ts = front ++ t :: back ∧ Uncut p front ∧ (front.foldl Progress.after p).isCut t = true := by
  induction ts generalizing p with
  | nil => exact .inl (uncut_nil p)
  | cons t ts ih =>
    cases ht : p.isCut t with
    | true => exact .inr ⟨[], t, ts, rfl, uncut_nil p, ht⟩
    | false =>
      rcases ih (p.after t) with h | ⟨front, t', back, rfl, hfront, hcut⟩
      · exact .inl (.cons ht h)
      · exact .inr ⟨t :: front, t', back, rfl, .cons ht hfront, hcut⟩

theorem stretches_of_uncut (h : Uncut p ts) : stretches p ts = [ts] := by
  induction ts generalizing p with
  | nil => rfl
  | cons t ts ih =>
    obtain ⟨ht, h⟩ := h.of_cons
    rw [stretches, ht, ih h]
    rfl

theorem stretches_append_cut (h : Uncut p ts) (hcut : (ts.foldl Progress.after p).isCut t = true) :
    stretches p (ts ++ t :: us) = ts :: stretches .start us := by
  induction ts generalizing p with
  | nil =>
    have hcut : p.isCut t = true := hcut
    rw [List.nil_append, stretches, if_pos hcut]
  | cons u ts ih =>
    obtain ⟨hu, h⟩ := h.of_cons
    rw [List.cons_append, stretches, hu, ih h hcut]
    rfl

end

/-! ### The scanner finds the cuts -/

/-- Tokens whose text is shorter come first. -/
theorem exists_of_length_lt {ts us ts' us' : List Token} (h : ts ++ us = ts' ++ us')
    (hlt : (textOf ts).length < (textOf ts').length) :
    ∃ t more, ts' = ts ++ t :: more ∧ us = t :: more ++ us' := by
  rcases List.append_eq_append_iff.1 h with ⟨more, rfl, rfl⟩ | ⟨more, rfl, rfl⟩
  · cases more with
    | nil =>
      rw [List.append_nil] at hlt
      exact absurd hlt (Nat.lt_irrefl _)
    | cons t more => exact ⟨t, more, rfl, rfl⟩
  · rw [textOf_append, List.length_append] at hlt
    omega

section
variable {before rest piece : List Char} {ts us : List Token}

theorem tokens_of_isCut (h : IsCut before rest) : ∃ ts, textOf ts = before ∧
    tokens (before ++ ';' :: rest) = ts ++ .symbol ';' :: tokens rest ∧ openBlocks ts = 0 := by
  obtain ⟨ts, rfl, hreads, hopen⟩ := h
  obtain ⟨afterWord, htokens⟩ := tokensFrom_of_reads hreads
  rw [tokensFrom_semicolon] at htokens
  exact ⟨ts, rfl, htokens, hopen⟩

theorem isCut_of_tokensFrom (h : tokens piece = ts ++ .symbol ';' :: us)
    (hopen : openBlocks ts = 0) : IsCut (textOf ts) (textOf us) := by
  have hreads := reads_of_tokensFrom h (List.cons_ne_nil _ _)
  rw [textOf_cons] at hreads
  exact ⟨ts, rfl, hreads, hopen⟩

/-- What follows a semicolon does not decide whether it is a cut. -/
theorem IsCut.change (h : IsCut before rest) (rest' : List Char) : IsCut before rest' := by
  obtain ⟨ts, hbefore, hreads, hopen⟩ := h
  exact ⟨ts, hbefore, hreads.change (atCut_semicolon rest) (atCut_semicolon rest'), hopen⟩

/-- Tokens before a place are uncut if no semicolon of their text is a cut. -/
theorem uncut_of_not_isCut (h : tokens piece = ts ++ us)
    (hnone : ∀ before after, textOf ts = before ++ ';' :: after →
      ¬ IsCut before (after ++ textOf us)) : Uncut .start ts := by
  rintro front t back rfl
  by_contra hcut
  obtain ⟨rfl, hdepth⟩ := eq_semicolon_of_isCut (Bool.not_eq_false _ ▸ hcut)
  rw [depth_eq_openBlocks] at hdepth
  rw [List.append_assoc, List.cons_append] at h
  have hcut := isCut_of_tokensFrom h hdepth
  rw [textOf_append] at hcut
  exact hnone (textOf front) (textOf back) (textOf_append_symbol front back ';') hcut

/-- In uncut tokens no semicolon is a cut. -/
theorem not_isCut_of_uncut {after : List Char} (h : tokens piece = ts ++ us)
    (huncut : Uncut .start ts) (htext : textOf ts = before ++ ';' :: after) :
    ¬ IsCut before (after ++ textOf us) := by
  intro hcut
  obtain ⟨front, rfl, htokens, hopen⟩ := tokens_of_isCut hcut
  have hpiece : piece = textOf front ++ ';' :: (after ++ textOf us) := by
    rw [← textOf_tokens piece, h, textOf_append, htext, List.append_assoc, List.cons_append]
  have hlt : (textOf front).length < (textOf ts).length := by
    rw [htext, List.length_append, List.length_cons]
    omega
  rw [← hpiece, h] at htokens
  obtain ⟨t, more, rfl, hmore⟩ := exists_of_length_lt htokens.symm hlt
  obtain ⟨rfl, -⟩ := List.cons.inj hmore
  have hsemicolon := huncut front _ more rfl
  rw [Progress.isCut, depth_eq_openBlocks, hopen] at hsemicolon
  cases hsemicolon

end

/-! ### Divisions -/

section
variable {script : List Char} {pieces : List (List Char)}

/-- Every script has a division. -/
theorem exists_divided (script : List Char) : ∃ pieces, Divided script pieces := by
  -- By the length of the script: what is behind the first cut is divided in turn.
  induction hlen : script.length using Nat.strong_induction_on generalizing script with
  | _ k ih =>
    subst hlen
    rcases uncut_or_cut .start (tokens script) with huncut | ⟨front, t, back, htokens, hfront, hcut⟩
    · refine ⟨[script], .last ?_⟩
      intro before rest hscript
      have hall : tokens script = tokens script ++ [] := (List.append_nil _).symm
      have hnone := not_isCut_of_uncut hall huncut ((textOf_tokens script).trans hscript)
      rwa [textOf_nil, List.append_nil] at hnone
    · obtain ⟨rfl, hdepth⟩ := eq_semicolon_of_isCut hcut
      rw [depth_eq_openBlocks] at hdepth
      have hscript : script = textOf front ++ ';' :: textOf back := by
        rw [← textOf_tokens script, htokens, textOf_append_symbol]
      have hlt : (textOf back).length < script.length := by
        rw [hscript, List.length_append, List.length_cons]
        omega
      obtain ⟨pieces, hpieces⟩ := ih _ hlt (textOf back) rfl
      refine ⟨textOf front :: pieces, ?_⟩
      rw [hscript]
      refine .cut (isCut_of_tokensFrom htokens hdepth) ?_ hpieces
      intro before after htext
      exact not_isCut_of_uncut htokens hfront htext

/-- The scanner stretches over the pieces of a division. -/
theorem Divided.stretches_eq (h : Divided script pieces) :
    stretches .start (tokens script) = pieces.map tokens := by
  induction h with
  | @last piece hnone =>
    have hall : tokens piece = tokens piece ++ [] := (List.append_nil _).symm
    refine stretches_of_uncut (uncut_of_not_isCut hall ?_)
    intro before after htext
    rw [textOf_nil, List.append_nil]
    exact hnone before after ((textOf_tokens piece).symm.trans htext)
  | @cut piece rest pieces hcut hnone _ ih =>
    obtain ⟨ts, rfl, hreads, hopen⟩ := hcut
    obtain ⟨afterWord, htokens⟩ := tokensFrom_of_reads hreads
    rw [tokensFrom_semicolon] at htokens
    have hpiece : tokens (textOf ts) = ts :=
      tokensFrom_textOf (hreads.change (atCut_semicolon rest) atCut_nil)
    have huncut : Uncut .start ts := by
      refine uncut_of_not_isCut htokens ?_
      intro before after htext
      rw [textOf_cons, textOf_tokensFrom]
      exact hnone before after htext
    have hsemicolon : (ts.foldl Progress.after .start).isCut (.symbol ';') = true := by
      rw [Progress.isCut, depth_eq_openBlocks, hopen]
      rfl
    rw [List.map_cons, hpiece, tokens, htokens, stretches_append_cut huncut hsemicolon, ← ih]
    rfl

/-- A script has one division. -/
theorem divided_iff :
    Divided script pieces ↔ pieces = (stretches .start (tokens script)).map textOf := by
  have hback : textOf ∘ tokens = id := funext textOf_tokens
  have hpieces : ∀ {pieces}, Divided script pieces →
      pieces = (stretches .start (tokens script)).map textOf := by
    intro pieces h
    rw [h.stretches_eq, List.map_map, hback, List.map_id]
  refine ⟨hpieces, ?_⟩
  rintro rfl
  obtain ⟨pieces, h⟩ := exists_divided script
  rwa [← hpieces h]

/-- A script is its pieces with semicolons between them. -/
theorem Divided.joined_eq (h : Divided script pieces) : joined [';'] pieces = script := by
  induction h with
  | last => rfl
  | @cut piece rest pieces _ _ h ih =>
    cases h with
    | last => exact List.append_assoc _ _ _
    | cut =>
      rw [joined, ih, List.append_assoc]
      · rfl
      · exact List.cons_ne_nil _ _

end

/-! ### Comments -/

section
variable {afterWord : Bool} {piece s before after span rest : List Char} {c : Char} {t : Token}
  {ts us : List Token}

/-- What stands before a comment does not matter. -/
theorem IsSpan.behind (h : IsSpan afterWord span rest) (hcomment : BeginsComment span)
    (afterWord' : Bool) : IsSpan afterWord' span rest := by
  cases h with
  | quoted hquote hcontent hrest => exact .quoted hquote hcontent hrest
  | openQuoted hquote hcontent => exact .openQuoted hquote hcontent
  | lineComment hcontent hrest => exact .lineComment hcontent hrest
  | comment hcontent => exact .comment hcontent
  | openComment hcontent => exact .openComment hcontent
  | body => exact absurd hcomment (not_beginsComment_cons (by decide) _)
  | openBody => exact absurd hcomment (not_beginsComment_cons (by decide) _)

/-- A span begins with no blank. -/
theorem IsSpan.exists_head (h : IsSpan afterWord span rest) :
    ∃ c more, span = c :: more ∧ isBlank c = false := by
  have hquoted : ∀ {c : Char}, IsQuote c → isBlank c = false := by
    rintro c (rfl | rfl | rfl) <;> decide
  cases h with
  | quoted hquote => exact ⟨_, _, rfl, hquoted hquote⟩
  | openQuoted hquote => exact ⟨_, _, rfl, hquoted hquote⟩
  | lineComment => exact ⟨_, _, rfl, by decide⟩
  | comment => exact ⟨_, _, rfl, by decide⟩
  | openComment => exact ⟨_, _, rfl, by decide⟩
  | body => exact ⟨_, _, rfl, by decide⟩
  | openBody => exact ⟨_, _, rfl, by decide⟩

/-- What is behind some tokens is scanned by itself. -/
theorem tokensFrom_of_append (h : tokensFrom afterWord s = ts ++ us) :
    ∃ afterWord', tokensFrom afterWord' (textOf us) = us := by
  induction ts generalizing afterWord s with
  | nil =>
    rw [List.nil_append] at h
    rw [← h, textOf_tokensFrom]
    exact ⟨afterWord, rfl⟩
  | cons t ts ih =>
    cases s with
    | nil =>
      rw [tokensFrom] at h
      cases h
    | cons c s =>
      rw [tokensFrom, List.cons_append] at h
      exact ih (List.cons.inj h).2

/-- A token is that of a span, a word or a character. -/
theorem token_cases (h : tokensFrom afterWord s = t :: us) :
    (∃ span, t = spanToken span ∧ IsSpan afterWord span (textOf us)) ∨
      (∃ word, t = .word word ∧ isIdentifier word = true) ∨ ∃ c, t = .symbol c := by
  cases s with
  | nil =>
    rw [tokensFrom] at h
    cases h
  | cons c s =>
    rw [tokensFrom] at h
    obtain ⟨rfl, htail⟩ := List.cons.inj h
    rw [← htail, textOf_tokensFrom]
    rcases firstToken_cases afterWord c s with ⟨span, rest, hfirst, hspan⟩ |
      ⟨word, rest, hfirst, -, hword, -⟩ | ⟨hfirst, -, -⟩
    · rw [hfirst]
      exact .inl ⟨span, rfl, hspan⟩
    · rw [hfirst]
      exact .inr (.inl ⟨word, rfl, hword⟩)
    · rw [hfirst]
      exact .inr (.inr ⟨c, rfl⟩)

/-- A token that says nothing is a comment or a blank. -/
theorem comment_or_blank (h : tokensFrom afterWord s = t :: us) (hcode : t.isCode = false) :
    IsComment t.text (textOf us) ∨ ∃ c, t = .symbol c ∧ isAsciiBlank c = true := by
  rcases token_cases h with ⟨span, rfl, hspan⟩ | ⟨word, rfl, -⟩ | ⟨c, rfl⟩
  · rw [text_spanToken]
    by_cases hcomment : BeginsComment span
    · exact .inl ⟨hcomment, hspan.behind hcomment false⟩
    · rw [spanToken, if_neg hcomment] at hcode
      cases hcode
  · cases hcode
  · exact .inr ⟨c, rfl, by simpa [Token.isCode] using hcode⟩

theorem isAsciiBlank_of_not_isBlank (h : isBlank c = false) : isAsciiBlank c = false := by
  by_contra hascii
  rw [isBlank_of_isAsciiBlank (Bool.not_eq_false _ ▸ hascii)] at h
  cases h

/-- A token that says something begins with no blank, unless it is one that ASCII does not have. -/
theorem exists_head_of_isCode (h : tokensFrom afterWord s = t :: us) (hcode : t.isCode = true) :
    ∃ c more, t.text = c :: more ∧ isAsciiBlank c = false ∧ (isBlank c = true → t = .symbol c) := by
  rcases token_cases h with ⟨span, rfl, hspan⟩ | ⟨word, rfl, hword⟩ | ⟨c, rfl⟩
  · rw [text_spanToken]
    obtain ⟨c, more, hmore, hc⟩ := hspan.exists_head
    exact ⟨c, more, hmore, isAsciiBlank_of_not_isBlank hc, by simp [hc]⟩
  · cases word with
    | nil => cases hword
    | cons c word =>
      have hc := isBlank_of_isWordChar (isWordChar_of_isIdentifier hword c List.mem_cons_self)
      exact ⟨c, word, rfl, isAsciiBlank_of_not_isBlank hc, by simp [hc]⟩
  · exact ⟨c, [], rfl, by simpa [Token.isCode] using hcode, fun _ => rfl⟩

/-- Every character of a text is in one of its tokens. -/
theorem exists_token (h : textOf ts = before ++ c :: after) : ∃ front t back inside more,
    ts = front ++ t :: back ∧ before = textOf front ++ inside ∧ t.text = inside ++ c :: more ∧
      after = more ++ textOf back := by
  induction ts generalizing before with
  | nil => simp [textOf] at h
  | cons t ts ih =>
    -- the character is behind the first token, or in it
    have hbehind : ∀ before', before = t.text ++ before' → textOf ts = before' ++ c :: after →
        ∃ front t' back inside more, t :: ts = front ++ t' :: back ∧
          before = textOf front ++ inside ∧ t'.text = inside ++ c :: more ∧
            after = more ++ textOf back := by
      rintro before' rfl hts
      obtain ⟨front, t', back, inside, more, rfl, rfl, htext, hafter⟩ := ih hts
      refine ⟨t :: front, t', back, inside, more, rfl, ?_, htext, hafter⟩
      rw [textOf_cons, List.append_assoc]
    rw [textOf_cons] at h
    rcases List.append_eq_append_iff.1 h with ⟨before', hbefore, hts⟩ | ⟨inside, htext, hts⟩
    · exact hbehind before' hbefore hts
    · cases inside with
      | nil =>
        rw [List.append_nil] at htext
        exact hbehind [] (by rw [htext, List.append_nil]) hts.symm
      | cons d more =>
        obtain ⟨rfl, rfl⟩ := List.cons.inj hts
        exact ⟨[], t, ts, before, more, rfl, rfl, htext, rfl⟩

theorem IsSilent.of_tokensFrom (h : tokensFrom afterWord s = ts)
    (hsilent : ∀ t ∈ ts, t.isCode = false) : IsSilent s := by
  induction ts generalizing afterWord s with
  | nil =>
    rw [← textOf_tokensFrom afterWord s, h]
    exact .nil
  | cons t ts ih =>
    obtain ⟨hcode, hsilent⟩ := List.forall_mem_cons.1 hsilent
    have happend : tokensFrom afterWord s = [t] ++ ts := h
    obtain ⟨afterWord', hts⟩ := tokensFrom_of_append happend
    have hrest : IsSilent (textOf ts) := ih hts hsilent
    rw [← textOf_tokensFrom afterWord s, h, textOf_cons]
    rcases comment_or_blank h hcode with hcomment | ⟨c, rfl, hblank⟩
    · exact .comment hcomment hrest
    · exact .blank hblank hrest

/-- A token that says something does not begin inside a comment. -/
theorem not_inComment (h : tokens piece = ts ++ t :: us) (hcode : t.isCode = true) :
    ¬ InComment (textOf ts) (t.text ++ textOf us) := by
  rintro ⟨ts', inside, more, behind, hbefore, hrest, hne, hreads, hcomment⟩
  obtain ⟨afterWord, htokens⟩ := tokensFrom_of_reads hreads
  have hpiece : textOf ts' ++ (inside ++ (t.text ++ textOf us)) = piece := by
    rw [← textOf_tokens piece, h, textOf_append, hbefore, textOf_cons, List.append_assoc]
  rw [hpiece, hrest, ← List.append_assoc inside,
    tokensFrom_span (hcomment.2.behind hcomment.1 afterWord), spanToken, if_pos hcomment.1,
    ← tokens, h] at htokens
  -- the comment is the token, or it ends before the token begins, or begins behind it
  have htext : t.text ≠ [] := by
    obtain ⟨afterWord', hbehind⟩ := tokensFrom_of_append h
    obtain ⟨c, text, htext, -⟩ := exists_head_of_isCode hbehind hcode
    rw [htext]
    exact List.cons_ne_nil _ _
  rcases List.append_eq_append_iff.1 htokens with ⟨between, rfl, heq⟩ | ⟨between, rfl, heq⟩
  · cases between with
    | nil =>
      obtain ⟨rfl, -⟩ := List.cons.inj heq
      cases hcode
    | cons u between =>
      obtain ⟨rfl, -⟩ := List.cons.inj heq
      rw [textOf_append, textOf_cons, List.append_assoc, List.append_assoc] at hbefore
      exact htext (List.append_eq_nil_iff.1 (List.self_eq_append_right.1 hbefore)).1
  · cases between with
    | nil =>
      obtain ⟨rfl, -⟩ := List.cons.inj heq
      cases hcode
    | cons u between =>
      obtain ⟨rfl, -⟩ := List.cons.inj heq
      rw [textOf_append, textOf_cons, Token.text, List.append_assoc] at hbefore
      have hmore := List.append_right_eq_self.1 (List.append_cancel_left hbefore)
      exact hne (List.append_eq_nil_iff.1 hmore).1

/-- A character outside of the comments that is no ASCII blank is in a token that says something. -/
theorem exists_code_token (hpiece : piece = before ++ c :: after) (hblank : isAsciiBlank c = false)
    (hcomment : ¬ InComment before (c :: after)) : ∃ t ∈ tokens piece, t.isCode = true ∧
      ∃ inside more, t.text = inside ++ c :: more := by
  obtain ⟨front, t, back, inside, more, htokens, rfl, htext, rfl⟩ :=
    exists_token ((textOf_tokens piece).trans hpiece)
  refine ⟨t, ?_, ?_, inside, more, htext⟩
  · rw [htokens]
    exact List.mem_append_right _ List.mem_cons_self
  · by_contra hcode
    obtain ⟨afterWord, hbehind⟩ := tokensFrom_of_append htokens
    rcases comment_or_blank hbehind (by simpa using hcode) with hspan | ⟨d, rfl, hd⟩
    · refine hcomment ⟨front, inside, c :: more, textOf back, rfl, rfl, List.cons_ne_nil _ _,
        ?_, ?_⟩
      · have hreads := reads_of_tokensFrom htokens (List.cons_ne_nil _ _)
        rw [textOf_cons, htext, List.append_assoc] at hreads
        exact hreads
      · rwa [htext] at hspan
    · cases inside with
      | nil =>
        obtain ⟨rfl, -⟩ := List.cons.inj htext
        rw [hd] at hblank
        cases hblank
      | cons e inside => simp [Token.text] at htext

/-- A token that says something begins with a character outside of the comments. -/
theorem exists_outside_comments (ht : t ∈ tokens piece) (hcode : t.isCode = true) :
    ∃ before c after, piece = before ++ c :: after ∧ isAsciiBlank c = false ∧
      (isBlank c = true → t = .symbol c) ∧ ¬ InComment before (c :: after) := by
  obtain ⟨front, back, htokens⟩ := List.append_of_mem ht
  obtain ⟨afterWord, hbehind⟩ := tokensFrom_of_append htokens
  obtain ⟨c, more, htext, hblank, hsymbol⟩ := exists_head_of_isCode hbehind hcode
  refine ⟨textOf front, c, more ++ textOf back, ?_, hblank, hsymbol, ?_⟩
  · rw [← textOf_tokens piece, htokens, textOf_append, textOf_cons, htext]
    rfl
  · have hnot := not_inComment htokens hcode
    rwa [htext] at hnot

/-- A piece says something if one of its tokens does. -/
theorem says_iff : Says piece ↔ (tokens piece).any Token.isCode = true := by
  rw [List.any_eq_true]
  constructor
  · rintro ⟨before, c, after, hpiece, hblank, hcomment⟩
    obtain ⟨t, ht, hcode, -⟩ := exists_code_token hpiece hblank hcomment
    exact ⟨t, ht, hcode⟩
  · rintro ⟨t, ht, hcode⟩
    obtain ⟨before, c, after, hpiece, hblank, -, hcomment⟩ := exists_outside_comments ht hcode
    exact ⟨before, c, after, hpiece, hblank, hcomment⟩

instance : DecidablePred Says := fun _ => decidable_of_iff _ says_iff.symm

/-- A piece that says nothing consists of comments and blanks. -/
theorem isSilent_of_not_says (h : ¬ Says piece) : IsSilent piece := by
  rw [says_iff, List.any_eq_true] at h
  have htokens : tokensFrom false piece = tokens piece := rfl
  refine .of_tokensFrom htokens ?_
  intro t ht
  by_contra hcode
  exact h ⟨t, ht, by simpa using hcode⟩

end

/-! ### Places of a script -/

/-- The semicolon between the two parts of the text is in no span. -/
def IsOutside (before rest : List Char) : Prop :=
  ∃ ts, textOf ts = before ∧ Reads false ts (';' :: rest)

/-- Reading comes to the end of the script outside of every span, and no block of its last statement
is open there. -/
def EndsOutside (script : List Char) : Prop :=
  ∃ pieces ts, Divided script (pieces ++ [textOf ts]) ∧ Reads false ts [] ∧ openBlocks ts = 0

section
variable {s piece last b : List Char} {pieces pieces' front back : List (List Char)}

/-- The semicolons between the pieces of a script are in no span of the script. -/
theorem Divided.isOutside (h : Divided s (front ++ back)) (hfront : front ≠ [])
    (hback : back ≠ []) : IsOutside (joined [';'] front) (joined [';'] back) := by
  induction front generalizing s with
  | nil => exact absurd rfl hfront
  | cons piece front ih =>
    have hne : front ++ back ≠ [] := by simp [hback]
    rw [List.cons_append] at h
    generalize hpieces : front ++ back = pieces at h hne
    cases h with
    | last => exact absurd rfl hne
    | @cut _ rest _ hcut _ h =>
      subst hpieces
      cases front with
      | nil =>
        obtain ⟨ts, htext, hreads, -⟩ := hcut.change (joined [';'] back)
        exact ⟨ts, htext, hreads⟩
      | cons next front =>
        obtain ⟨us, hus, hbehind⟩ := ih h (List.cons_ne_nil _ _)
        obtain ⟨ts, rfl, hreads, -⟩ := hcut.change (textOf us ++ ';' :: joined [';'] back)
        refine ⟨ts ++ .symbol ';' :: us, ?_, hreads.append_break (by decide) hbehind⟩
        rw [textOf_append_symbol, hus, joined_cons (List.cons_ne_nil _ _), List.append_assoc]
        rfl

/-- Where another piece follows, there is a cut. -/
theorem Divided.isCut {next : List Char} (h : Divided s (pieces ++ last :: next :: pieces')) :
    ∃ rest, IsCut last rest := by
  induction pieces generalizing s with
  | nil =>
    cases h with
    | cut hcut => exact ⟨_, hcut⟩
  | cons piece pieces ih =>
    rw [List.cons_append] at h
    generalize hpieces : pieces ++ last :: next :: pieces' = more at h
    cases h with
    | last => simp at hpieces
    | cut _ _ h =>
      subst hpieces
      exact ih h

/-- A script is continued behind a semicolon, if that is a cut. -/
theorem Divided.append (h : Divided s (pieces ++ [last])) (hcut : IsCut last b)
    (hb : Divided b pieces') : Divided (s ++ ';' :: b) (pieces ++ last :: pieces') := by
  induction pieces generalizing s with
  | nil =>
    cases h with
    | last hnone =>
      refine .cut hcut ?_ hb
      intro before after hlast hcut'
      exact hnone before after hlast (hcut'.change _)
    | cut _ _ h => cases h
  | cons piece pieces ih =>
    rw [List.cons_append] at h
    generalize hpieces : pieces ++ [last] = more at h
    cases h with
    | last => simp at hpieces
    | @cut _ rest _ hcut' hnone h =>
      subst hpieces
      rw [List.append_assoc, List.cons_append]
      refine .cut (hcut'.change _) ?_ (ih h)
      intro before after hpiece hcut''
      exact hnone before after hpiece (hcut''.change _)

/-- A script ends outside of every span and block if a semicolon behind it is a cut. -/
theorem endsOutside_iff : EndsOutside s ↔
    stretches .start (tokens (s ++ [';'])) = stretches .start (tokens s) ++ [[]] := by
  constructor
  · rintro ⟨pieces, ts, h, hreads, hopen⟩
    have hcut : IsCut (textOf ts) [] :=
      ⟨ts, rfl, hreads.change atCut_nil (atCut_semicolon _), hopen⟩
    have hnil : Divided [] [[]] := .last (by simp)
    rw [(h.append hcut hnil).stretches_eq, h.stretches_eq]
    simp [tokens, tokensFrom]
  · intro hstretches
    have h : Divided s ((stretches .start (tokens s)).map textOf) := divided_iff.2 rfl
    have hmore : Divided (s ++ [';']) ((stretches .start (tokens s)).map textOf ++ [[]]) := by
      rw [divided_iff, hstretches, List.map_append]
      rfl
    rcases List.eq_nil_or_concat ((stretches .start (tokens s)).map textOf) with
      hnil | ⟨pieces, last, hpieces⟩
    · rw [hnil] at h
      cases h
    · rw [hpieces, List.concat_eq_append] at h hmore
      rw [List.append_assoc] at hmore
      obtain ⟨rest, ts, rfl, hreads, hopen⟩ := hmore.isCut
      exact ⟨pieces, ts, h, hreads.change (atCut_semicolon _) atCut_nil, hopen⟩

instance : DecidablePred EndsOutside := fun _ => decidable_of_iff _ endsOutside_iff.symm

end

/-! ### Statements -/

/-- The statements of a script are the pieces of its division that say something. -/
theorem Divided.statements_eq {script : String} {pieces : List (List Char)}
    (h : Divided script.toList pieces) :
    statements script = (pieces.filter (Says ·)).map fun piece => .ofList (trimmed piece) := by
  have hsays : (fun piece => decide (Says piece)) = (·.any Token.isCode) ∘ tokens := by
    funext piece
    rw [Function.comp_apply, Bool.eq_iff_iff, decide_eq_true_eq, says_iff]
  rw [statements, h.stretches_eq, List.filter_map, List.map_map, hsays]
  refine List.map_congr_left ?_
  intro piece _
  rw [Function.comp_apply, textOf_tokens]

/-- **Scripts are split exactly.**  A script is cut at the semicolons outside of every span and
block, and nowhere else.  Its statements are the pieces that say something, without the blanks
around them, and every other piece consists of comments and blanks. -/
theorem statements_exact (script : String) : ∃ pieces, Divided script.toList pieces ∧
    (∀ pieces', Divided script.toList pieces' → pieces' = pieces) ∧
    joined [';'] pieces = script.toList ∧
    (∀ front back, pieces = front ++ back → front ≠ [] → back ≠ [] →
      IsOutside (joined [';'] front) (joined [';'] back)) ∧
    statements script = (pieces.filter (Says ·)).map (fun piece => .ofList (trimmed piece)) ∧
    ∀ piece ∈ pieces, ¬ Says piece → IsSilent piece := by
  obtain ⟨pieces, h⟩ := exists_divided script.toList
  refine ⟨pieces, h, ?_, h.joined_eq, ?_, h.statements_eq, ?_⟩
  · intro pieces' h'
    rw [divided_iff.1 h, divided_iff.1 h']
  · rintro front back rfl
    exact h.isOutside
  · intro piece _
    exact isSilent_of_not_says

/-- **Scripts are split piece by piece.**  If a script ends outside of every span and block, what
follows behind a semicolon is cut into statements as if it stood alone, and so is the script. -/
theorem statements_append_semicolon {a b : String} (h : EndsOutside a.toList) :
    statements (a ++ ";" ++ b) = statements a ++ statements b := by
  obtain ⟨pieces, ts, hdivided, hreads, hopen⟩ := h
  obtain ⟨pieces', hb⟩ := exists_divided b.toList
  have hcut : IsCut (textOf ts) b.toList :=
    ⟨ts, rfl, hreads.change atCut_nil (atCut_semicolon _), hopen⟩
  have hjoined : Divided (a ++ ";" ++ b).toList (pieces ++ textOf ts :: pieces') := by
    have htext : (a ++ ";" ++ b).toList = a.toList ++ ';' :: b.toList := by simp
    rw [htext]
    exact hdivided.append hcut hb
  rw [hjoined.statements_eq, hdivided.statements_eq, hb.statements_eq, ← List.map_append,
    ← List.filter_append, List.append_assoc]
  rfl

/-- A trigger, and behind it a comment with a semicolon. -/
def deletionTrigger : String :=
  "create trigger t after delete on a begin delete from b; end -- of t;\n"

/-- The trigger ends outside and stays whole, whatever its comment says; the text behind it opens a
transaction, and the block of the trigger is none of its own. -/
theorem statements_append_trigger :
    EndsOutside deletionTrigger.toList ∧
      statements (deletionTrigger ++ ";" ++ "begin; insert into a values (';')") =
        ["create trigger t after delete on a begin delete from b; end -- of t;", "begin",
          "insert into a values (';')"] := by
  have hends : EndsOutside deletionTrigger.toList := by decide +kernel
  have htrigger : statements deletionTrigger =
      ["create trigger t after delete on a begin delete from b; end -- of t;"] := by
    decide +kernel
  have hrest : statements "begin; insert into a values (';')" =
      ["begin", "insert into a values (';')"] := by
    decide +kernel
  refine ⟨hends, ?_⟩
  rw [statements_append_semicolon hends, htrigger, hrest]
  rfl

end RecordLayer.Sql
