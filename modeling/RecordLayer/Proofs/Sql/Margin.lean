import RecordLayer.Proofs.Sql.Division

/-!
# Blanks around a text

The statements of a script are trimmed, and what is taken from a piece is read with it: blanks in
front of the text are tokens by themselves, and so are those behind it, unless the text ends in a
span that goes on with them.  Trimming may shorten that span and changes no other token, which is
said of the outlines of the tokens (`outline_trimmed`).  In front of a cut no span is open, and
there the trimmed piece may be followed by a newline (`IsCut.reads_trimmed`).

A piece counts as a statement if it says something, and a character that says something is one that
is no blank of ASCII.  Trimming takes the blanks of Unicode away.  `Shows` is to these what `Says`
is to the others, and `statements_show_iff` tells which scripts have statements that show nothing.
-/

namespace RecordLayer.Sql
open Text

/-! ### Outlines -/

/-- The token without the inside of its span. -/
def Token.outline : Token → Token
  | .quoted _ => .quoted []
  | .comment _ => .comment []
  | .word letters => .word letters
  | .symbol c => .symbol c

section
variable {p : Progress} {ts : List Token}

@[simp] theorem after_outline (p : Progress) (t : Token) : p.after t.outline = p.after t := by
  cases t <;> rfl

@[simp] theorem isCut_outline (p : Progress) (t : Token) : p.isCut t.outline = p.isCut t := by
  have hsymbol : (t.outline == .symbol ';') = (t == .symbol ';') := by
    cases t with
    | quoted content => rfl
    | comment content => rfl
    | word letters => rfl
    | symbol c => rfl
  rw [Progress.isCut, Progress.isCut, hsymbol]

theorem foldl_after_outline (p : Progress) (ts : List Token) :
    (ts.map Token.outline).foldl Progress.after p = ts.foldl Progress.after p := by
  simp [List.foldl_map]

theorem uncut_outline_iff : Uncut p (ts.map Token.outline) ↔ Uncut p ts := by
  induction ts generalizing p with
  | nil => rfl
  | cons t ts ih =>
    rw [List.map_cons]
    constructor
    · intro h
      obtain ⟨ht, h⟩ := h.of_cons
      rw [isCut_outline] at ht
      rw [after_outline] at h
      exact .cons ht (ih.1 h)
    · intro h
      obtain ⟨ht, h⟩ := h.of_cons
      refine .cons ?_ ?_
      · rwa [isCut_outline]
      · rw [after_outline]
        exact ih.2 h

end

/-! ### Breaks behind a span -/

section
variable {afterWord : Bool} {mark content span s w : List Char} {quote d : Char}

theorem not_mem_of_isBreak (hw : ∀ c ∈ w, isBreak c = true) (hd : isBreak d = false) : d ∉ w := by
  intro hmem
  rw [hw d hmem] at hd
  cases hd

/-- A mark does not end among characters that are not in it. -/
theorem not_infix_append (h : ¬ mark ++ [d] <:+: content) (hd : d ∉ w) :
    ¬ mark ++ [d] <:+: content ++ w := by
  rintro ⟨front, back, heq⟩
  rcases List.append_eq_append_iff.1 heq with ⟨more, hcontent, -⟩ | ⟨more, hmore, rfl⟩
  · exact h ⟨front, more, hcontent.symm⟩
  · rcases List.eq_nil_or_concat more with rfl | ⟨more, e, rfl⟩
    · refine h ⟨front, [], ?_⟩
      rw [List.append_nil, hmore, List.append_nil]
    · rw [List.concat_eq_append, ← List.append_assoc, ← List.append_assoc] at hmore
      obtain ⟨-, hlast⟩ := List.append_inj' hmore rfl
      obtain rfl := (List.cons.inj hlast).1
      simp at hd

/-- A span is a comment, or begins with none of the characters that comments begin with. -/
theorem IsSpan.beginsComment_or (h : IsSpan afterWord span s) :
    BeginsComment span ∨ ∃ c more, span = c :: more ∧ c ≠ '-' ∧ c ≠ '/' := by
  have hquoted : ∀ {quote : Char}, IsQuote quote → quote ≠ '-' ∧ quote ≠ '/' := by
    rintro quote (rfl | rfl | rfl) <;> decide
  cases h with
  | quoted hquote => exact .inr ⟨_, _, rfl, hquoted hquote⟩
  | openQuoted hquote => exact .inr ⟨_, _, rfl, hquoted hquote⟩
  | lineComment => exact .inl (.inl ⟨_, rfl⟩)
  | comment => exact .inl (.inr ⟨_, rfl⟩)
  | openComment => exact .inl (.inr ⟨_, rfl⟩)
  | body => exact .inr ⟨_, _, rfl, by decide⟩
  | openBody => exact .inr ⟨_, _, rfl, by decide⟩

/-- A span that goes on is of the same kind. -/
theorem IsSpan.outline_append (h : IsSpan afterWord span s) (more : List Char) :
    (spanToken (span ++ more)).outline = (spanToken span).outline := by
  rcases h.beginsComment_or with hcomment | ⟨c, inside, rfl, hc⟩
  · have hmore : BeginsComment (span ++ more) :=
      hcomment.imp (·.trans (List.prefix_append _ _)) (·.trans (List.prefix_append _ _))
    rw [spanToken, if_pos hmore, spanToken, if_pos hcomment]
    rfl
  · rw [spanToken, List.cons_append, if_neg (not_beginsComment_cons hc _), spanToken,
      if_neg (not_beginsComment_cons hc _)]
    rfl

/-- A newline closes a span that is not closed yet, or nothing does but its own mark. -/
theorem IsSpan.isClosed_or_open (h : IsSpan afterWord span s) :
    IsClosed afterWord span (s ++ ['\n']) ∨
      s = [] ∧ ∀ w, (∀ c ∈ w, isBreak c = true) → IsSpan afterWord (span ++ w) [] := by
  cases h with
  | quoted hquote hcontent hrest =>
    have hend := isBreak_of_isQuote hquote
    have hhead := mt (atBreak_newline.head?_append_eq_some_iff hend).1 hrest
    exact .inl (.quoted hquote hcontent hhead)
  | openQuoted hquote hcontent =>
    refine .inr ⟨rfl, fun w hw => .openQuoted hquote (hcontent.append (.of_not_mem ?_))⟩
    exact not_mem_of_isBreak hw (isBreak_of_isQuote hquote)
  | lineComment hcontent hrest =>
    cases s with
    | nil => exact .inl (.lineComment hcontent)
    | cons c s =>
      obtain rfl := hrest c rfl
      exact .inl (.lineComment hcontent)
  | comment hcontent => exact .inl (.comment hcontent)
  | @openComment content hcontent =>
    refine .inr ⟨rfl, fun w hw => .openComment ?_⟩
    have hmark : ¬ ['*'] ++ ['/'] <:+: content := hcontent
    exact not_infix_append hmark (not_mem_of_isBreak hw (by decide))
  | body hafter htag hcontent => exact .inl (.body hafter htag hcontent)
  | @openBody tag content hafter htag hcontent =>
    refine .inr ⟨rfl, fun w hw => ?_⟩
    rw [List.append_assoc]
    have hmark : ¬ ('$' :: tag) ++ ['$'] <:+: content := hcontent
    exact .openBody hafter htag (not_infix_append hmark (not_mem_of_isBreak hw (by decide)))

/-- Behind a span that a newline closes, breaks are what follows it, or the text ended in it, and
those in front of the next newline are in it. -/
theorem IsClosed.append_breaks (h : IsClosed afterWord span (s ++ ['\n']))
    (hw : ∀ c ∈ w, isBreak c = true) : ∃ more behind, s ++ w = more ++ behind ∧
      IsSpan afterWord (span ++ more) behind ∧ (more = [] ∨ s = []) := by
  have hbreak := atBreak_of_breaks hw
  have hbehind (hspan : IsSpan afterWord span (s ++ w)) : ∃ more behind, s ++ w = more ++ behind ∧
      IsSpan afterWord (span ++ more) behind ∧ (more = [] ∨ s = []) := by
    refine ⟨[], s ++ w, rfl, ?_, .inl rfl⟩
    rwa [List.append_nil]
  generalize hrest : s ++ ['\n'] = rest at h
  cases h with
  | quoted hquote hcontent hhead =>
    have hend := isBreak_of_isQuote hquote
    rw [← hrest, ne_eq, atBreak_newline.head?_append_eq_some_iff hend] at hhead
    exact hbehind (.quoted hquote hcontent (mt (hbreak.head?_append_eq_some_iff hend).1 hhead))
  | lineComment hcontent =>
    cases s with
    | nil =>
      -- without the newline, the comment goes on to the next one
      refine ⟨w.takeWhile (· != '\n'), w.dropWhile (· != '\n'), ?_, ?_, .inr rfl⟩
      · rw [List.nil_append, List.takeWhile_append_dropWhile]
      · refine .lineComment ?_ (head?_dropWhile_newline w)
        intro hmem
        rcases List.mem_append.1 hmem with hmem | hmem
        · exact hcontent hmem
        · simpa using List.mem_takeWhile_imp hmem
    | cons c s =>
      obtain ⟨rfl, -⟩ := List.cons.inj hrest
      exact hbehind (.lineComment hcontent (by simp))
  | comment hcontent => exact hbehind (.comment hcontent)
  | body hafter htag hcontent => exact hbehind (.body hafter htag hcontent)

theorem IsSpan.append_breaks (h : IsSpan afterWord span s) (hw : ∀ c ∈ w, isBreak c = true) :
    ∃ more behind, s ++ w = more ++ behind ∧ IsSpan afterWord (span ++ more) behind ∧
      (more = [] ∨ s = []) := by
  rcases h.isClosed_or_open with hclosed | ⟨rfl, hopen⟩
  · exact hclosed.append_breaks hw
  · exact ⟨w, [], (List.append_nil w).symm, hopen w hw, .inr rfl⟩

end

/-! ### Breaks behind a text -/

section
variable {w : List Char}

/-- Breaks in front of a text are tokens by themselves. -/
theorem tokens_breaks_append (hw : ∀ c ∈ w, isBreak c = true) (s : List Char) :
    tokens (w ++ s) = w.map Token.symbol ++ tokens s := by
  induction w with
  | nil => rfl
  | cons c w ih =>
    obtain ⟨hc, hw⟩ := List.forall_mem_cons.1 hw
    rw [tokens, List.cons_append, tokensFrom_break hc, ← tokens, ih hw]
    rfl

theorem tokensFrom_breaks (hw : ∀ c ∈ w, isBreak c = true) (afterWord : Bool) :
    tokensFrom afterWord w = w.map Token.symbol := by
  cases w with
  | nil => rw [tokensFrom, List.map_nil]
  | cons c w =>
    obtain ⟨hc, hw⟩ := List.forall_mem_cons.1 hw
    have htokens := tokens_breaks_append hw []
    rw [tokens, tokens, tokensFrom, List.append_nil, List.append_nil] at htokens
    rw [tokensFrom_break hc, htokens, List.map_cons]

/-- Breaks behind a text are tokens by themselves, but for those that its last span goes on with. -/
theorem outline_append_breaks (hw : ∀ c ∈ w, isBreak c = true) (afterWord : Bool) (s : List Char) :
    ∃ behind, behind <:+ w ∧ (tokensFrom afterWord (s ++ w)).map Token.outline =
      (tokensFrom afterWord s).map Token.outline ++ behind.map Token.symbol := by
  have hbreak := atBreak_of_breaks hw
  have hbreaks : ∀ {behind : List Char}, behind <:+ w → ∀ afterWord,
      (tokensFrom afterWord behind).map Token.outline = behind.map Token.symbol := by
    intro behind hbehind afterWord
    rw [tokensFrom_breaks (fun c hc => hw c (hbehind.subset hc)), List.map_map]
    rfl
  induction afterWord, s using tokensFrom_induction with
  | nil afterWord =>
    refine ⟨w, List.suffix_rfl, ?_⟩
    rw [List.nil_append, hbreaks List.suffix_rfl, tokensFrom]
    rfl
  | span afterWord span s hspan ih =>
    obtain ⟨more, rest, hrest, hmore, hend⟩ := hspan.append_breaks hw
    have htokens : tokensFrom afterWord (span ++ s ++ w) =
        spanToken (span ++ more) :: tokensFrom ((span ++ more).getLast?.any isWordChar) rest := by
      rw [List.append_assoc, hrest, ← List.append_assoc, tokensFrom_span hmore]
    rw [htokens, List.map_cons, hspan.outline_append, tokensFrom_span hspan, List.map_cons]
    -- the span takes none of the breaks, or nothing stands between it and them
    rcases hend with rfl | rfl
    · obtain ⟨behind, hbehind, houtline⟩ := ih
      obtain rfl : s ++ w = rest := hrest
      refine ⟨behind, hbehind, ?_⟩
      rw [List.append_nil, houtline, List.cons_append]
    · obtain rfl : w = more ++ rest := hrest
      have hbehind : rest <:+ more ++ rest := List.suffix_append more rest
      refine ⟨rest, hbehind, ?_⟩
      rw [hbreaks hbehind, tokensFrom]
      rfl
  | word word s hword hends ih =>
    obtain ⟨behind, hbehind, houtline⟩ := ih
    refine ⟨behind, hbehind, ?_⟩
    rw [List.append_assoc, tokensFrom_word hword (hbreak.endsWord_append_iff.2 hends),
      tokensFrom_word hword hends, List.map_cons, houtline, List.map_cons, List.cons_append]
  | symbol afterWord c s hspan hword ih =>
    obtain ⟨behind, hbehind, houtline⟩ := ih
    refine ⟨behind, hbehind, ?_⟩
    rw [List.cons_append, tokensFrom_single (mt hbreak.beginsSpan_append_iff.1 hspan) hword,
      tokensFrom_single hspan hword, List.map_cons, houtline, List.map_cons, List.cons_append]

/-- A text that is not read up to a newline behind it ends in a span that no break closes. -/
theorem reads_or_open (afterWord : Bool) (s : List Char) :
    Reads afterWord (tokensFrom afterWord s) ['\n'] ∨
      ∀ w, (∀ c ∈ w, isBreak c = true) →
        ∃ us span, tokensFrom afterWord (s ++ w) = us ++ [spanToken span] := by
  induction afterWord, s using tokensFrom_induction with
  | nil afterWord =>
    rw [tokensFrom]
    exact .inl (.nil _ _)
  | span afterWord span s hspan ih =>
    rw [tokensFrom_span hspan]
    rcases hspan.isClosed_or_open with hclosed | ⟨rfl, hopen⟩
    · rcases ih with hreads | hopen
      · refine .inl (.span ?_ hreads)
        rwa [textOf_tokensFrom]
      · refine .inr fun w hw => ?_
        obtain ⟨us, inside, hus⟩ := hopen w hw
        obtain ⟨more, rest, hrest, hmore, rfl | rfl⟩ := hclosed.append_breaks hw
        · obtain rfl : s ++ w = rest := hrest
          rw [List.append_nil] at hmore
          refine ⟨spanToken span :: us, inside, ?_⟩
          rw [List.append_assoc, tokensFrom_span hmore, hus, List.cons_append]
        · -- the text ends with the span, and nothing is open behind that
          obtain ⟨us, inside, hus⟩ := hopen [] (by simp)
          rw [List.append_nil, tokensFrom] at hus
          simp at hus
    · refine .inr fun w hw => ⟨[], span ++ w, ?_⟩
      have htokens := tokensFrom_span (hopen w hw)
      rw [tokensFrom, List.append_nil] at htokens
      rw [List.append_nil, htokens, List.nil_append]
  | word word s hword hends ih =>
    rw [tokensFrom_word hword hends]
    rcases ih with hreads | hopen
    · refine .inl (.word hword ?_ hreads)
      rwa [textOf_tokensFrom, atBreak_newline.endsWord_append_iff]
    · refine .inr fun w hw => ?_
      obtain ⟨us, span, hus⟩ := hopen w hw
      refine ⟨.word word :: us, span, ?_⟩
      have hends := (atBreak_of_breaks hw).endsWord_append_iff.2 hends
      rw [List.append_assoc, tokensFrom_word hword hends, hus, List.cons_append]
  | symbol afterWord c s hspan hword ih =>
    rw [tokensFrom_single hspan hword]
    rcases ih with hreads | hopen
    · refine .inl (.symbol ?_ hword hreads)
      rwa [textOf_tokensFrom, atBreak_newline.beginsSpan_append_iff]
    · refine .inr fun w hw => ?_
      obtain ⟨us, span, hus⟩ := hopen w hw
      refine ⟨.symbol c :: us, span, ?_⟩
      have hspan := mt (atBreak_of_breaks hw).beginsSpan_append_iff.1 hspan
      rw [List.cons_append, tokensFrom_single hspan hword, hus, List.cons_append]

end

/-! ### Trimmed texts -/

section
variable {piece rest w : List Char}

theorem isBreak_of_blanks (hw : ∀ c ∈ w, isBlank c = true) : ∀ c ∈ w, isBreak c = true := by
  intro c hc
  rw [isBreak, hw c hc, Bool.or_true]

/-- Trimming takes away blanks that are tokens by themselves, and blanks from inside of a span. -/
theorem outline_trimmed (piece : List Char) : ∃ lead behind : List Char,
    (∀ c ∈ lead ++ behind, c ∈ piece ∧ isBlank c = true) ∧ (tokens piece).map Token.outline =
      lead.map Token.symbol ++
        ((tokens (trimmed piece)).map Token.outline ++ behind.map Token.symbol) := by
  obtain ⟨lead, trail, hpiece, hlead, htrail⟩ := exists_margins piece
  obtain ⟨behind, hbehind, houtline⟩ :=
    outline_append_breaks (isBreak_of_blanks htrail) false (trimmed piece)
  refine ⟨lead, behind, ?_, ?_⟩
  · intro c hc
    rcases List.mem_append.1 hc with hc | hc
    · refine ⟨?_, hlead c hc⟩
      rw [hpiece]
      exact List.mem_append_left _ hc
    · have hc := hbehind.subset hc
      refine ⟨?_, htrail c hc⟩
      rw [hpiece]
      exact List.mem_append_right _ (List.mem_append_right _ hc)
  · have htokens := tokens_breaks_append (isBreak_of_blanks hlead) (trimmed piece ++ trail)
    rw [← hpiece] at htokens
    rw [htokens, List.map_append, tokens, houtline, List.map_map]
    rfl

/-- In front of a cut, what is left of the piece is read up to a newline behind it. -/
theorem IsCut.reads_trimmed (h : IsCut piece rest) :
    Reads false (tokens (trimmed piece)) ['\n'] := by
  obtain ⟨lead, trail, hpiece, hlead, htrail⟩ := exists_margins piece
  have hbreaks : ∀ c ∈ trail ++ [';'], isBreak c = true := by
    intro c hc
    rcases List.mem_append.1 hc with hc | hc
    · exact isBreak_of_blanks htrail c hc
    · rw [List.mem_singleton.1 hc]
      rfl
  rcases reads_or_open false (trimmed piece) with hreads | hopen
  · exact hreads
  · -- an open span would take the blanks and the semicolon, and so there would be no cut
    obtain ⟨us, span, hus⟩ := hopen _ hbreaks
    obtain ⟨ts, -, htokens, -⟩ := tokens_of_isCut (h.change [])
    have htext : piece ++ [';'] = lead ++ (trimmed piece ++ (trail ++ [';'])) := by
      conv_lhs => rw [hpiece]
      simp
    have hnil : tokens [] = [] := by rw [tokens, tokensFrom]
    rw [htext, tokens_breaks_append (isBreak_of_blanks hlead), hnil, tokens, hus,
      ← List.append_assoc] at htokens
    obtain ⟨-, hlast⟩ := List.append_inj' htokens rfl
    have hspan := (List.cons.inj hlast).1
    rw [spanToken] at hspan
    split at hspan <;> cases hspan

end

/-! ### What is shown -/

/-- The text has a character outside its comments that is no blank. -/
def Shows (piece : List Char) : Prop :=
  ∃ before c after, piece = before ++ c :: after ∧ isBlank c = false ∧
    ¬ InComment before (c :: after)

/-- The token is neither a comment nor a blank. -/
def Token.shows : Token → Bool
  | comment _ => false
  | symbol c => !isBlank c
  | quoted _ => true
  | word _ => true

section
variable {piece : List Char}

/-- A piece shows something if one of its tokens does. -/
theorem shows_iff : Shows piece ↔ (tokens piece).any Token.shows = true := by
  rw [List.any_eq_true]
  constructor
  · rintro ⟨before, c, after, hpiece, hblank, hcomment⟩
    obtain ⟨t, ht, hcode, inside, more, htext⟩ :=
      exists_code_token hpiece (isAsciiBlank_of_not_isBlank hblank) hcomment
    refine ⟨t, ht, ?_⟩
    cases t with
    | comment content => cases hcode
    | quoted content => rfl
    | word letters => rfl
    | symbol d =>
      have hd : c ∈ [d] := by
        rw [← Token.text, htext]
        simp
      rw [Token.shows, ← List.mem_singleton.1 hd, hblank]
      rfl
  · rintro ⟨t, ht, hshows⟩
    have hcode : t.isCode = true := by
      cases t with
      | comment content => cases hshows
      | quoted content => rfl
      | word letters => rfl
      | symbol c =>
        have hblank : isBlank c = false := by simpa [Token.shows] using hshows
        rw [Token.isCode, isAsciiBlank_of_not_isBlank hblank]
        rfl
    obtain ⟨before, c, after, hpiece, -, hblank, hcomment⟩ := exists_outside_comments ht hcode
    refine ⟨before, c, after, hpiece, ?_, hcomment⟩
    by_contra hc
    have hc : isBlank c = true := by simpa using hc
    rw [hblank hc, Token.shows, hc] at hshows
    cases hshows

theorem not_shows_nil : ¬ Shows [] := by
  rintro ⟨before, c, after, hnil, -⟩
  simp at hnil

/-- Where all blanks are those of ASCII, what says something shows it. -/
theorem Says.shows (h : Says piece)
    (hascii : ∀ c ∈ piece, isBlank c = true → isAsciiBlank c = true) : Shows piece := by
  obtain ⟨before, c, after, rfl, hc, hcomment⟩ := h
  refine ⟨before, c, after, rfl, ?_, hcomment⟩
  by_contra hblank
  rw [hascii c (by simp) (by simpa using hblank)] at hc
  cases hc

instance : DecidablePred Shows := fun _ => decidable_of_iff _ shows_iff.symm

/-- Trimming does not change whether a piece shows something. -/
theorem shows_trimmed_iff : Shows (trimmed piece) ↔ Shows piece := by
  have houtlines (ts : List Token) :
      (ts.map Token.outline).any Token.shows = ts.any Token.shows := by
    have hshows : Token.shows ∘ Token.outline = Token.shows := by
      funext t
      cases t <;> rfl
    rw [List.any_map, hshows]
  obtain ⟨lead, behind, hblank, houtline⟩ := outline_trimmed piece
  have hnone : ∀ w : List Char, w ⊆ lead ++ behind →
      (w.map Token.symbol).any Token.shows = false := by
    intro w hw
    rw [List.any_map, List.any_eq_false]
    intro c hc
    simp [Token.shows, (hblank c (hw hc)).2]
  rw [shows_iff, shows_iff, ← houtlines (tokens piece), houtline, List.any_append, List.any_append,
    hnone lead (List.subset_append_left _ _), hnone behind (List.subset_append_right _ _),
    houtlines, Bool.false_or, Bool.or_false]

/-- Blanks say something if one of them is none that ASCII has. -/
theorem says_iff_of_blanks (h : ∀ c ∈ piece, isBlank c = true) :
    Says piece ↔ ∃ c ∈ piece, isAsciiBlank c = false := by
  rw [says_iff, tokens, tokensFrom_breaks (isBreak_of_blanks h), List.any_map, List.any_eq_true]
  simp [Token.isCode]

end

section
variable {script : String} {pieces : List (List Char)}

theorem Divided.mem_statements_iff (h : Divided script.toList pieces) {s : String} :
    s ∈ statements script ↔ ∃ piece ∈ pieces, Says piece ∧ String.ofList (trimmed piece) = s := by
  rw [h.statements_eq, List.mem_map]
  simp [and_assoc]

/-- Every statement shows something exactly if every piece does that says something. -/
theorem Divided.all_show_iff (h : Divided script.toList pieces) :
    (∀ s ∈ statements script, s ≠ "" ∧ Shows s.toList) ↔
      ∀ piece ∈ pieces, Says piece → Shows piece := by
  constructor
  · intro hall piece hpiece hcode
    obtain ⟨-, hshows⟩ := hall _ (h.mem_statements_iff.2 ⟨piece, hpiece, hcode, rfl⟩)
    rwa [String.toList_ofList, shows_trimmed_iff] at hshows
  · intro hall s hs
    obtain ⟨piece, hpiece, hcode, rfl⟩ := h.mem_statements_iff.1 hs
    have hshows : Shows (trimmed piece) := shows_trimmed_iff.2 (hall piece hpiece hcode)
    refine ⟨?_, by rwa [String.toList_ofList]⟩
    intro hempty
    have hnil : trimmed piece = [] := String.ofList_injective hempty
    rw [hnil] at hshows
    exact not_shows_nil hshows

/-- A statement is empty exactly if a piece of blanks says something. -/
theorem Divided.empty_mem_statements_iff (h : Divided script.toList pieces) :
    "" ∈ statements script ↔
      ∃ piece ∈ pieces, (∀ c ∈ piece, isBlank c = true) ∧ ∃ c ∈ piece, isAsciiBlank c = false := by
  rw [h.mem_statements_iff]
  refine exists_congr fun piece => and_congr_right fun _ => ?_
  have hempty : String.ofList (trimmed piece) = "" ↔ ∀ c ∈ piece, isBlank c = true := by
    rw [← trimmed_eq_nil_iff, ← String.toList_inj, String.toList_ofList]
    rfl
  rw [hempty, and_comm]
  exact and_congr_right says_iff_of_blanks

theorem Divided.subset {s : List Char} (h : Divided s pieces) : ∀ piece ∈ pieces, piece ⊆ s := by
  induction h with
  | last => simp
  | cut _ _ _ ih =>
    refine List.forall_mem_cons.2 ⟨List.subset_append_left _ _, fun piece hpiece => ?_⟩
    exact List.subset_append_of_subset_right _ (List.subset_cons_of_subset _ (ih piece hpiece))

end

/-- **Statements that show nothing.**  Every statement of a script has a character outside its
comments that is no blank, exactly if every piece that says something has one; so it is where all
blanks are those of ASCII.  A statement is empty exactly if some piece consists of blanks, and of
them not all are blanks of ASCII. -/
theorem statements_show_iff (script : String) : ∃ pieces, Divided script.toList pieces ∧
    ((∀ s ∈ statements script, s ≠ "" ∧ Shows s.toList) ↔
      ∀ piece ∈ pieces, Says piece → Shows piece) ∧
    ((∀ c ∈ script.toList, isBlank c = true → isAsciiBlank c = true) →
      ∀ s ∈ statements script, s ≠ "" ∧ Shows s.toList) ∧
    ("" ∈ statements script ↔
      ∃ piece ∈ pieces, (∀ c ∈ piece, isBlank c = true) ∧ ∃ c ∈ piece, isAsciiBlank c = false) := by
  obtain ⟨pieces, h⟩ := exists_divided script.toList
  refine ⟨pieces, h, h.all_show_iff, fun hascii => ?_, h.empty_mem_statements_iff⟩
  refine h.all_show_iff.2 fun piece hpiece hcode => hcode.shows fun c hc => ?_
  exact hascii c (h.subset piece hpiece hc)

/-- A script with a no-break space between two semicolons. -/
def spacedScript : String := "CREATE TABLE a (id INT);\u00a0;\nCREATE TABLE b (id INT)"

/-- The no-break space says something, and nothing is left of it. -/
theorem statements_spaced :
    statements spacedScript = ["CREATE TABLE a (id INT)", "", "CREATE TABLE b (id INT)"] ∧
      ¬ ∀ s ∈ statements spacedScript, s ≠ "" ∧ Shows s.toList := by
  have hpieces : statements spacedScript =
      ["CREATE TABLE a (id INT)", "", "CREATE TABLE b (id INT)"] := by decide +kernel
  refine ⟨hpieces, fun hall => ?_⟩
  have hmem : "" ∈ statements spacedScript := by simp [hpieces]
  exact (hall "" hmem).1 rfl

end RecordLayer.Sql
