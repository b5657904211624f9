import RecordLayer.Proofs.Sql.Division

/-!
# Blocks

The body of a trigger or a procedure has semicolons of its own, and a definition stays whole as far
as the scanner finds the end of the block that it opens.  The scanner counts words: `BEGIN` and
`CASE` open a block, `END` closes one.  The height of a body is the sum of these steps (`height`).

A definition stays whole exactly if its body leaves the block open in front of each semicolon and
nothing but the block in front of its end (`statements_definition_iff`).  So a body whose words
balance stays whole, however many semicolons it has (`statements_block`).

What the scanner does with a body is followed by its progress.  `Matched` says that an `END` closes
a block, as long as no semicolon was a cut, and then the height tells how many blocks are open
(`Matched.depth_eq`).
-/

namespace RecordLayer.Sql
open Text

/-! ### Texts that are read to their end -/

/-- The text ends outside of every span, and these are its tokens. -/
def ReadsAs (s : List Char) (ts : List Token) : Prop :=
  textOf ts = s ∧ Reads false ts []

section
variable {s s' : List Char} {ts us : List Token} {c : Char}

theorem ReadsAs.tokens_append_semicolon (h : ReadsAs s ts) (r : List Char) :
    tokens (s ++ ';' :: r) = ts ++ .symbol ';' :: tokens r := by
  obtain ⟨rfl, hreads⟩ := h
  obtain ⟨afterWord, htokens⟩ := tokensFrom_of_reads (hreads.ofEnd (atCut_semicolon r).atBreak)
  rw [tokens, htokens, tokensFrom_semicolon, tokens]

theorem readsAs_iff :
    ReadsAs s ts ↔ textOf ts = s ∧ tokens (s ++ [';']) = ts ++ [.symbol ';'] := by
  constructor
  · intro h
    refine ⟨h.1, ?_⟩
    rw [h.tokens_append_semicolon, tokens, tokensFrom]
  · rintro ⟨htext, htokens⟩
    have hreads := reads_of_tokensFrom htokens (List.cons_ne_nil _ _)
    exact ⟨htext, hreads.change (atCut_semicolon []) atCut_nil⟩

instance (s : List Char) (ts : List Token) : Decidable (ReadsAs s ts) :=
  decidable_of_iff _ readsAs_iff.symm

/-- Two texts with a break between them are read one after the other. -/
theorem ReadsAs.append_break (hc : isBreak c = true) (h : ReadsAs s ts) (h' : ReadsAs s' us) :
    ReadsAs (s ++ c :: s') (ts ++ .symbol c :: us) := by
  obtain ⟨rfl, hreads⟩ := h
  obtain ⟨rfl, hreads'⟩ := h'
  exact ⟨textOf_append_symbol ts us c, (hreads.ofEnd (atBreak_cons hc _)).append_break hc hreads'⟩

theorem readsAs_word {word : List Char} (h : isIdentifier word = true) :
    ReadsAs word [.word word] :=
  ⟨List.append_nil word, .word h endsWord_nil (.nil _ _)⟩

end

/-! ### Uncut tokens -/

section
variable {p : Progress} {t : Token} {ts us front back : List Token}

/-- A token of two lists is in the second or in the first. -/
theorem append_cons_cases (h : ts ++ us = front ++ t :: back) :
    (∃ more, front = ts ++ more ∧ us = more ++ t :: back) ∨
      ∃ more, ts = front ++ t :: more ∧ back = more ++ us := by
  rcases List.append_eq_append_iff.1 h with ⟨more, rfl, hus⟩ | ⟨more, rfl, hmore⟩
  · exact .inl ⟨more, rfl, hus⟩
  · cases more with
    | nil => exact .inl ⟨[], by simp, hmore.symm⟩
    | cons u more =>
      obtain ⟨rfl, rfl⟩ := List.cons.inj hmore
      exact .inr ⟨more, rfl, rfl⟩

theorem uncut_append_iff :
    Uncut p (ts ++ us) ↔ Uncut p ts ∧ Uncut (ts.foldl Progress.after p) us := by
  constructor
  · intro h
    refine ⟨?_, ?_⟩
    · rintro front t back rfl
      exact h front t (back ++ us) (by simp)
    · rintro front t back rfl
      have hcut := h (ts ++ front) t back (by simp)
      rwa [List.foldl_append] at hcut
  · rintro ⟨hts, hus⟩ front t back heq
    rcases append_cons_cases heq with ⟨more, rfl, rfl⟩ | ⟨more, rfl, rfl⟩
    · rw [List.foldl_append]
      exact hus more t back rfl
    · exact hts front t more rfl

end

/-! ### Statements that stay whole -/

/-- A cut stands behind the tokens that are uncut. -/
theorem exists_append_of_isCut {p : Progress} {t : Token} {ps us front back : List Token}
    (h : ps ++ us = front ++ t :: back) (hps : Uncut p ps)
    (hcut : (front.foldl Progress.after p).isCut t = true) : ∃ more, front = ps ++ more := by
  rcases append_cons_cases h with ⟨more, rfl, -⟩ | ⟨more, rfl, -⟩
  · exact ⟨more, rfl⟩
  · rw [hps front t more rfl] at hcut
    cases hcut

/-- Trimming does not take a semicolon away. -/
theorem trimmed_textOf_append_ne (ts more : List Token) :
    trimmed (textOf (ts ++ .symbol ';' :: more)) ≠ trimmed (textOf ts) := by
  have hblank : isBlank ';' = false := by decide
  intro heq
  have hlt := length_trimmed_lt hblank (textOf ts) (textOf more)
  rw [← textOf_append_symbol, heq] at hlt
  exact absurd hlt (Nat.lt_irrefl _)

/-- Two statements before a semicolon of one script are the same if they are trimmed to the same. -/
theorem eq_of_trimmed_textOf_eq {ts us ts' us' : List Token}
    (h : ts ++ .symbol ';' :: us = ts' ++ .symbol ';' :: us')
    (htrim : trimmed (textOf ts) = trimmed (textOf ts')) : ts = ts' := by
  rcases append_cons_cases h with ⟨more, rfl, hmore⟩ | ⟨more, rfl, -⟩
  · cases more with
    | nil => rw [List.append_nil]
    | cons t more =>
      obtain ⟨rfl, -⟩ := List.cons.inj hmore
      exact absurd htrim.symm (trimmed_textOf_append_ne ts more)
  · exact absurd htrim (trimmed_textOf_append_ne ts' more)

/-- The first stretch of a script is its first statement, if it says something. -/
theorem statements_of_stretches {script : String} {ts : List Token} {rest : List (List Token)}
    (h : stretches .start (tokens script.toList) = ts :: rest)
    (hcode : ts.any Token.isCode = true) :
    statements script = .ofList (trimmed (textOf ts)) ::
      (rest.filter (·.any Token.isCode)).map fun stretch => .ofList (trimmed (textOf stretch)) := by
  rw [statements, h, List.filter_cons, hcode, if_pos rfl, List.map_cons]

/-- A text that begins with a part that says something and has no cut is split off as one statement,
exactly if it has no cut at all and no block is open at its end. -/
theorem statements_eq_cons_iff {d r : String} {ps us : List Token}
    (hd : ReadsAs d.toList (ps ++ us)) (hps : Uncut .start ps)
    (hcode : ps.any Token.isCode = true) :
    statements (d ++ ";" ++ r) = trim d :: statements r ↔
      Uncut (ps.foldl Progress.after .start) us ∧
        ((ps ++ us).foldl Progress.after .start).depth = 0 := by
  have htokens : tokens (d ++ ";" ++ r).toList = (ps ++ us) ++ .symbol ';' :: tokens r.toList := by
    have htext : (d ++ ";" ++ r).toList = d.toList ++ ';' :: r.toList := by simp
    rw [htext, hd.tokens_append_semicolon]
  have hbegins : tokens (d ++ ";" ++ r).toList =
      ps ++ (us ++ .symbol ';' :: tokens r.toList) := by
    rw [htokens, List.append_assoc]
  have hany : ∀ more, (ps ++ more).any Token.isCode = true := by
    intro more
    rw [List.any_append, hcode, Bool.true_or]
  constructor
  · intro h
    have hsame : ∀ {ts rest}, stretches .start (tokens (d ++ ";" ++ r).toList) = ts :: rest →
        ts.any Token.isCode = true → trimmed (textOf ts) = trimmed (textOf (ps ++ us)) := by
      intro ts rest hstretches hts
      rw [statements_of_stretches hstretches hts, trim, ← hd.1] at h
      exact String.ofList_injective (List.cons.inj h).1
    rcases uncut_or_cut .start (tokens (d ++ ";" ++ r).toList) with
      huncut | ⟨front, t, back, hsplit, hfront, hcut⟩
    · -- without a cut, the first statement goes on behind the semicolon
      have hall := hsame (stretches_of_uncut huncut) (hbegins ▸ hany _)
      rw [htokens] at hall
      exact absurd hall (trimmed_textOf_append_ne _ _)
    · obtain ⟨rfl, hdepth⟩ := eq_semicolon_of_isCut hcut
      obtain ⟨more, rfl⟩ := exists_append_of_isCut (hbegins ▸ hsplit) hps hcut
      have hstretches : stretches .start (tokens (d ++ ";" ++ r).toList) =
          (ps ++ more) :: stretches .start back := by
        rw [hsplit, stretches_append_cut hfront hcut]
      rw [htokens] at hsplit
      have heq := eq_of_trimmed_textOf_eq hsplit (hsame hstretches (hany more)).symm
      rw [heq]
      obtain rfl := List.append_cancel_left heq
      exact ⟨(uncut_append_iff.1 hfront).2, hdepth⟩
  · rintro ⟨hus, hdepth⟩
    have huncut : Uncut .start (ps ++ us) := uncut_append_iff.2 ⟨hps, hus⟩
    have hcut : ((ps ++ us).foldl Progress.after .start).isCut (.symbol ';') = true := by
      rw [Progress.isCut, hdepth]
      rfl
    have hstretches : stretches .start (tokens (d ++ ";" ++ r).toList) =
        (ps ++ us) :: stretches .start (tokens r.toList) := by
      rw [htokens, stretches_append_cut huncut hcut]
    rw [statements_of_stretches hstretches (hany us), hd.1]
    rfl

/-! ### Words -/

/-- The token is a word of the name, in capitals or small letters. -/
def Token.isWord (name : String) : Token → Bool
  | .word w => sameWord w name.toList
  | _ => false

section
variable {t : Token} {name : String}

theorem folded_of_isWord (h : t.isWord name = true) :
    ∃ w, t = .word w ∧ folded w = folded name.toList := by
  cases t with
  | word w => exact ⟨w, rfl, by simpa [Token.isWord, sameWord] using h⟩
  | _ => cases h

theorem opensBlock_of_isWord (h : t.isWord name = true) :
    t.opensBlock = (Token.word name.toList).opensBlock := by
  obtain ⟨w, rfl, hw⟩ := folded_of_isWord h
  simp only [Token.opensBlock, sameWord, hw]

theorem closesBlock_of_isWord (h : t.isWord name = true) :
    t.closesBlock = (Token.word name.toList).closesBlock := by
  obtain ⟨w, rfl, hw⟩ := folded_of_isWord h
  simp only [Token.closesBlock, sameWord, hw]

theorem isWord_of_closesBlock (h : t.closesBlock = true) : t.isWord "END" = true := by
  cases t with
  | word w => exact h
  | _ => cases h

theorem opensBlock_of_closesBlock (h : t.closesBlock = true) : t.opensBlock = false :=
  opensBlock_of_isWord (isWord_of_closesBlock h)

end

/-! ### Heights -/

/-- The blocks that a token opens, less those that it closes. -/
def Token.blockStep (t : Token) : Int :=
  if t.opensBlock then 1 else if t.closesBlock then -1 else 0

/-- The blocks that tokens open, less those that they close. -/
def height : List Token → Int
  | [] => 0
  | t :: ts => t.blockStep + height ts

@[simp] theorem height_nil : height [] = 0 := rfl

@[simp] theorem height_cons (t : Token) (ts : List Token) :
    height (t :: ts) = t.blockStep + height ts := rfl

@[simp] theorem height_append (ts us : List Token) :
    height (ts ++ us) = height ts + height us := by
  induction ts with
  | nil => simp
  | cons t ts ih => rw [List.cons_append, height_cons, ih, height_cons, Int.add_assoc]

theorem blockStep_of_isWord {t : Token} {name : String} (h : t.isWord name = true) :
    t.blockStep = (Token.word name.toList).blockStep := by
  rw [Token.blockStep, Token.blockStep, opensBlock_of_isWord h, closesBlock_of_isWord h]

theorem blockStep_of_closesBlock {t : Token} (h : t.closesBlock = true) : t.blockStep = -1 :=
  blockStep_of_isWord (isWord_of_closesBlock h)

/-- The words that open blocks and the words that close them balance, and from the left the second
never outnumber the first. -/
structure Balanced (ts : List Token) : Prop where
  nonneg : ∀ front, front <+: ts → 0 ≤ height front
  even : height ts = 0

/-- In front of each semicolon the words that close blocks do not outnumber those that open them. -/
def Covered (ts : List Token) : Prop :=
  ∀ front, front ++ [.symbol ';'] <+: ts → 0 ≤ height front

instance : DecidablePred Balanced := fun ts =>
  decidable_of_iff ((∀ front ∈ ts.inits, 0 ≤ height front) ∧ height ts = 0)
    ⟨fun h => ⟨fun front hfront => h.1 front ((List.mem_inits _ _).2 hfront), h.2⟩,
      fun h => ⟨fun front hfront => h.nonneg front ((List.mem_inits _ _).1 hfront), h.even⟩⟩

instance : DecidablePred Covered := fun ts =>
  decidable_of_iff (∀ front ∈ ts.inits, front ++ [.symbol ';'] <+: ts → 0 ≤ height front)
    ⟨fun h front hfront =>
      h front ((List.mem_inits _ _).2 ((List.prefix_append _ _).trans hfront)) hfront,
      fun h front _ => h front⟩

/-! ### Open blocks -/

/-- Up to the first cut, every word that closes a block has one to close, `d` being open at first.
-/
def Matched (d : Nat) (ts : List Token) : Prop :=
  ∀ front t back, ts = front ++ t :: back → Uncut ⟨d, true⟩ front → t.closesBlock = true →
    front.foldl blocksBehind d ≠ 0

section
variable {d : Nat} {t : Token} {ts us : List Token}

theorem after_mk (d : Nat) (t : Token) : Progress.after ⟨d, true⟩ t = ⟨blocksBehind d t, true⟩ := by
  simp [Progress.after, blocksBehind]

theorem foldl_after_mk (d : Nat) (ts : List Token) :
    ts.foldl Progress.after ⟨d, true⟩ = ⟨ts.foldl blocksBehind d, true⟩ := by
  induction ts generalizing d with
  | nil => rfl
  | cons t ts ih => rw [List.foldl_cons, List.foldl_cons, after_mk, ih]

theorem not_isCut_iff : Progress.isCut ⟨d, true⟩ t = false ↔ (t = .symbol ';' → d ≠ 0) := by
  simp [Progress.isCut, imp_not_comm]

theorem Matched.of_cons (h : Matched d (t :: ts)) : (t.closesBlock = true → d ≠ 0) ∧
    (Progress.isCut ⟨d, true⟩ t = false → Matched (blocksBehind d t) ts) := by
  refine ⟨fun ht => h [] t ts rfl (uncut_nil _) ht, fun hcut => ?_⟩
  rintro front u back rfl hfront hu
  refine h (t :: front) u back rfl (.cons hcut ?_) hu
  rwa [after_mk]

theorem Matched.append (h : Matched d ts)
    (h' : Uncut ⟨d, true⟩ ts → Matched (ts.foldl blocksBehind d) us) : Matched d (ts ++ us) := by
  intro front t back heq hfront ht
  rcases append_cons_cases heq with ⟨more, rfl, rfl⟩ | ⟨more, rfl, rfl⟩
  · obtain ⟨hts, hmore⟩ := uncut_append_iff.1 hfront
    rw [foldl_after_mk] at hmore
    rw [List.foldl_append]
    exact h' hts more t back rfl hmore ht
  · exact h front t more rfl hfront ht

theorem blocksBehind_eq (h : t.closesBlock = true → d ≠ 0) :
    (blocksBehind d t : Int) = d + t.blockStep := by
  rw [blocksBehind, Token.blockStep]
  split
  · rfl
  · split
    · rename_i hcloses
      have := h hcloses
      omega
    · simp

/-- The height tells how many blocks are open. -/
theorem Matched.depth_eq (h : Matched d ts) (huncut : Uncut ⟨d, true⟩ ts) :
    ((ts.foldl blocksBehind d : Nat) : Int) = d + height ts := by
  induction ts generalizing d with
  | nil => simp
  | cons t ts ih =>
    obtain ⟨hcut, huncut⟩ := huncut.of_cons
    rw [after_mk] at huncut
    obtain ⟨hcloses, h⟩ := h.of_cons
    rw [List.foldl_cons, ih (h hcut) huncut, blocksBehind_eq hcloses, height_cons]
    omega

theorem Matched.of_append (h : Matched d (ts ++ us)) : Matched d ts := by
  rintro front t back rfl
  exact h front t (back ++ us) (by simp)

/-- Tokens are uncut if a block is open in front of each semicolon. -/
theorem Matched.uncut_iff (h : Matched d ts) : Uncut ⟨d, true⟩ ts ↔
    ∀ front, front ++ [.symbol ';'] <+: ts → 0 < d + height front := by
  constructor
  · rintro huncut front ⟨back, rfl⟩
    rw [List.append_assoc] at h huncut
    have hopen := h.of_append.depth_eq (uncut_append_iff.1 huncut).1
    have hcut := huncut front _ back rfl
    rw [foldl_after_mk, not_isCut_iff] at hcut
    have hne := hcut rfl
    omega
  · intro hcovered
    rcases uncut_or_cut ⟨d, true⟩ ts with huncut | ⟨front, t, back, rfl, hfront, hcut⟩
    · exact huncut
    · obtain ⟨rfl, hdepth⟩ := eq_semicolon_of_isCut hcut
      rw [foldl_after_mk] at hdepth
      have hnone : front.foldl blocksBehind d = 0 := hdepth
      have hopen := h.of_append.depth_eq hfront
      have hpos := hcovered front ⟨back, by simp⟩
      omega

theorem matched_singleton_iff : Matched d [t] ↔ (t.closesBlock = true → d ≠ 0) := by
  refine ⟨fun h => h.of_cons.1, ?_⟩
  rintro h front u back heq - hu
  cases front with
  | nil =>
    obtain ⟨rfl, -⟩ := List.cons.inj heq
    exact h hu
  | cons v front => simp at heq

/-- In a block, what is uncut is covered. -/
theorem Matched.uncut_iff_covered (h : Matched 1 ts) : Uncut ⟨1, true⟩ ts ↔ Covered ts := by
  rw [h.uncut_iff]
  refine forall_congr' fun front => imp_congr_right fun _ => ?_
  omega

/-- Where the words that close blocks do not outnumber those that open them, each has one to close.
-/
theorem matched_of_height (h : ∀ front, front <+: ts → 0 ≤ d + height front) : Matched d ts := by
  induction ts generalizing d with
  | nil =>
    rintro front t back heq
    simp at heq
  | cons t ts ih =>
    have hcloses : t.closesBlock = true → d ≠ 0 := by
      rintro ht rfl
      have hstep := h [t] ⟨ts, rfl⟩
      rw [height_cons, blockStep_of_closesBlock ht] at hstep
      simp at hstep
    have hrest : Matched (blocksBehind d t) ts := by
      refine ih fun front hfront => ?_
      have hheight := h (t :: front) (List.cons_prefix_cons.2 ⟨rfl, hfront⟩)
      rw [height_cons] at hheight
      rw [blocksBehind_eq hcloses]
      omega
    exact (matched_singleton_iff.2 hcloses).append fun _ => hrest

theorem Balanced.matched (h : Balanced ts) : Matched 1 ts := by
  refine matched_of_height fun front hfront => ?_
  have hnonneg := h.nonneg front hfront
  omega

theorem Balanced.covered (h : Balanced ts) : Covered ts :=
  fun front hfront => h.nonneg front ((List.prefix_append _ _).trans hfront)

end

/-! ### Definitions with a body -/

/-- Tokens without a semicolon and without a word that opens or closes a block. -/
def IsBlockless (ts : List Token) : Prop :=
  ∀ t ∈ ts, t ≠ .symbol ';' ∧ t.opensBlock = false ∧ t.closesBlock = false

/-- What leads up to a block: it says something, and there is no semicolon and no word of a block in
it. -/
def IsHeading (ts : List Token) : Prop :=
  ts.any Token.isCode = true ∧ IsBlockless ts

instance : DecidablePred IsBlockless := fun ts =>
  inferInstanceAs
    (Decidable (∀ t ∈ ts, t ≠ .symbol ';' ∧ t.opensBlock = false ∧ t.closesBlock = false))

instance : DecidablePred IsHeading := fun ts =>
  inferInstanceAs (Decidable (ts.any Token.isCode = true ∧ IsBlockless ts))

section
variable {ts ps bs : List Token} {p b : String}

theorem uncut_of_not_mem (h : .symbol ';' ∉ ts) (p : Progress) : Uncut p ts := by
  rintro front t back rfl
  have ht : t ≠ .symbol ';' := by
    rintro rfl
    simp at h
  simp [Progress.isCut, ht]

theorem IsBlockless.uncut (h : IsBlockless ts) (p : Progress) : Uncut p ts :=
  uncut_of_not_mem (fun hmem => (h _ hmem).1 rfl) p

theorem IsBlockless.foldl_after (h : IsBlockless ts) (p : Progress) :
    ts.foldl Progress.after p = ⟨p.depth, p.code || ts.any Token.isCode⟩ := by
  induction ts generalizing p with
  | nil => simp
  | cons t ts ih =>
    obtain ⟨⟨-, hopens, hcloses⟩, hts⟩ := List.forall_mem_cons.1 h
    rw [List.foldl_cons, ih hts, Progress.after, hopens, hcloses, List.any_cons, Bool.or_assoc]
    rfl

/-- The tokens in front of the body of a block. -/
def beginTokens : List Token :=
  [.symbol ' ', .word "BEGIN".toList, .symbol ' ']

/-- The tokens behind the body of a block. -/
def endTokens : List Token :=
  [.symbol ' ', .word "END".toList]

theorem readsAs_definition (hp : ReadsAs p.toList ps) (hb : ReadsAs b.toList bs) :
    ReadsAs (p ++ " BEGIN " ++ b ++ " END").toList (ps ++ (beginTokens ++ (bs ++ endTokens))) := by
  have hblank : isBreak ' ' = true := by decide
  have hbegin : ReadsAs "BEGIN".toList [.word "BEGIN".toList] := readsAs_word (by decide)
  have hend : ReadsAs "END".toList [.word "END".toList] := readsAs_word (by decide)
  have hblock := hp.append_break hblank
    (hbegin.append_break hblank (hb.append_break hblank hend))
  simpa [beginTokens, endTokens] using hblock

/-- A definition stays whole, exactly if the words of its body leave the block open in front of each
semicolon, and nothing but the block in front of its end. -/
theorem statements_definition_iff (hp : ReadsAs p.toList ps) (hhead : IsHeading ps)
    (hb : ReadsAs b.toList bs) (hbody : Matched 1 bs) (r : String) :
    statements (p ++ " BEGIN " ++ b ++ " END" ++ ";" ++ r) =
        trim (p ++ " BEGIN " ++ b ++ " END") :: statements r ↔
      Covered bs ∧ height bs ≤ 0 := by
  obtain ⟨hcode, hblockless⟩ := hhead
  have hfront : ps.foldl Progress.after .start = ⟨0, true⟩ := by
    rw [hblockless.foldl_after, hcode]
    rfl
  have hbegin : beginTokens.foldl Progress.after ⟨0, true⟩ = ⟨1, true⟩ := by decide
  have huncut : Uncut ⟨0, true⟩ (beginTokens ++ (bs ++ endTokens)) ↔ Covered bs := by
    have hopening : Uncut ⟨0, true⟩ beginTokens := uncut_of_not_mem (by decide) _
    have hclosing : Uncut (bs.foldl Progress.after ⟨1, true⟩) endTokens :=
      uncut_of_not_mem (by decide) _
    rw [uncut_append_iff, hbegin, uncut_append_iff, and_iff_right hopening,
      and_iff_left hclosing, hbody.uncut_iff_covered]
  have hdepth : ((ps ++ (beginTokens ++ (bs ++ endTokens))).foldl Progress.after .start).depth =
      bs.foldl blocksBehind 1 - 1 := by
    rw [List.foldl_append, hfront, List.foldl_append, hbegin, List.foldl_append, foldl_after_mk]
    rfl
  rw [statements_eq_cons_iff (readsAs_definition hp hb) (hblockless.uncut _) hcode, hfront, huncut,
    hdepth]
  refine and_congr_right fun hcovered => ?_
  have hopen := hbody.depth_eq (hbody.uncut_iff_covered.2 hcovered)
  omega

end

/-- **Block bodies stay whole.**  A heading that says something, with a block behind it in whose
body the words that open and close blocks balance, is one statement, and the script behind its
semicolon is split as if it stood alone. -/
theorem statements_block {p b : String} {ps bs : List Token} (hp : ReadsAs p.toList ps)
    (hhead : IsHeading ps) (hb : ReadsAs b.toList bs) (hbody : Balanced bs) (r : String) :
    statements (p ++ " BEGIN " ++ b ++ " END" ++ ";" ++ r) =
      trim (p ++ " BEGIN " ++ b ++ " END") :: statements r :=
  (statements_definition_iff hp hhead hb hbody.matched r).2
    ⟨hbody.covered, Int.le_of_eq hbody.even⟩

/-- What leads up to the block of a trigger. -/
def markHeading : String := "-- marks; once\nCREATE TRIGGER mark AFTER UPDATE ON ra_nodes"

/-- A body with a `case` expression, and with semicolons and words of blocks in its quotes and
comments. -/
def markBody : String :=
  "UPDATE ra_nodes SET detail = case WHEN detail = 'END;' THEN '' ELSE NULL end; /* END; */"

/-- The words of the body balance, and the trigger stays whole. -/
theorem statements_trigger_mark :
    ReadsAs markHeading.toList (tokens markHeading.toList) ∧ IsHeading (tokens markHeading.toList) ∧
      ReadsAs markBody.toList (tokens markBody.toList) ∧ Balanced (tokens markBody.toList) ∧
      statements (markHeading ++ " BEGIN " ++ markBody ++ " END" ++ ";" ++ "DROP TABLE ra_jobs") =
        trim (markHeading ++ " BEGIN " ++ markBody ++ " END") ::
          statements "DROP TABLE ra_jobs" := by
  have hp : ReadsAs markHeading.toList (tokens markHeading.toList) := by decide +kernel
  have hhead : IsHeading (tokens markHeading.toList) := by decide +kernel
  have hb : ReadsAs markBody.toList (tokens markBody.toList) := by decide +kernel
  have hbody : Balanced (tokens markBody.toList) := by decide +kernel
  exact ⟨hp, hhead, hb, hbody, statements_block hp hhead hb hbody "DROP TABLE ra_jobs"⟩

end RecordLayer.Sql
