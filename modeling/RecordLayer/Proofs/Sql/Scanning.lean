import RecordLayer.Proofs.Sql.Division
import RecordLayer.Proofs.Sql.Extent
import RecordLayer.Proofs.Sql.Passage

/-!
# Scanning by positions

Parameters may be filled, and statements cut, by going from position to position through the bytes
of a text (`expandAt`, `statementsAt`).  Filling takes a whole character at a time, and cutting a
single byte, so the second one comes to positions inside of characters; both ask at every position
whether a span begins there, and cut out what they pass.

No slip is ever made: no byte is read outside of the text, nothing is cut out of order or inside of
a character, and every round gets further (`scanned_by_positions`).  Each round is compared with
what is passed at a place between two characters: `fillRound_span` and the lemmas behind it for
filling, `cutRound_span` and those behind it for cutting, where the rounds inside of a character
change nothing (`cutRound_inside`).  A whole run follows by induction on what is passed, with what
is before it kept general (`scan_fillRound`, `scan_cutRound`).
-/

namespace RecordLayer.Sql
open Text

/-! ### Filling parameters -/

/-- What is written and bound so far. -/
structure Filling where
  out : List Char
  values : List Value

/-- Text is kept. -/
def Filling.push (f : Filling) (content : List Char) : Filling :=
  { f with out := f.out ++ content }

/-- A value is bound, and its placeholder written. -/
def Filling.bind (f : Filling) (dialect : Dialect) (v : Value) : Filling where
  out := f.out ++ (slot dialect (f.values.length + 1) v).toList
  values := f.values ++ [v]

/-- One character is kept. -/
def passChar (s : List Char) (i : Nat) (f : Filling) :
    Except Slip (Turn Filling (Except Failure (List Char × List Value))) := do
  let rest ← slice s i (size s)
  let next := i + rest.head?.elim 1 fun c => size [c]
  let content ← slice s i next
  .ok (.on next (f.push content))

/-- The parameter of which the name begins at the position gives way to its placeholder. -/
def bindParam (params : Params) (dialect : Dialect) (s : List Char) (i : Nat) (f : Filling) :
    Except Slip (Turn Filling (Except Failure (List Char × List Value))) := do
  let stop ← wordEnd s i
  let name ← slice s i stop
  match params.get? (.ofList name) with
  | none => .ok (.done (.error (.missingParam (.ofList name))))
  | some v => .ok (.on stop (f.bind dialect v))

/-- One round of filling: a span, a pair of colons, a parameter or a character. -/
def fillRound (params : Params) (dialect : Dialect) (s : List Char) (i : Nat) (f : Filling) :
    Except Slip (Turn Filling (Except Failure (List Char × List Value))) := do
  match ← spanEnd? s i with
  | some stop =>
    let content ← slice s i stop
    .ok (.on stop (f.push content))
  | none =>
    let b ← octet s i
    if b = ':' ∧ (octets s)[i + 1]? = some ':' then .ok (.on (i + 2) (f.push [':', ':']))
    else if b = ':' ∧ (octets s)[i + 1]?.any isWordStart then bindParam params dialect s (i + 1) f
    else passChar s i f

/-- The statement in the dialect's own form, and the values to bind in order, found by positions. -/
def expandAt (sql : String) (params : Params) (dialect : Dialect) :
    Except Slip (Except Failure (String × List Value)) := do
  let result ← scan (fillRound params dialect) (fun _ f => .ok (.ok (f.out, f.values)))
    sql.toList 0 ⟨[], []⟩
  .ok (result.map fun (text, values) => (.ofList text, values))

section
variable {params : Params} {dialect : Dialect} {f : Filling} {c : Char} {a s span name : List Char}

/-- A span is kept as a whole. -/
theorem fillRound_span (h : IsSpan (a.getLast?.any isWordChar) span s) :
    fillRound params dialect (a ++ (span ++ s)) (size a) f =
      .ok (.on (size (a ++ span)) (f.push span)) := by
  have hslice := slice_append a span s
  rw [← size_append] at hslice
  rw [fillRound, (measured_of_isSpan h).2, ok_bind]
  simp only [hslice, ok_bind]

/-- Where no span begins, the character and the next one say what is to be done. -/
theorem fillRound_of_enclosed?_eq_none (h : enclosed? (a.getLast?.any isWordChar) c s = none) :
    fillRound params dialect (a ++ c :: s) (size a) f =
      if c = ':' ∧ s.head? = some ':' then .ok (.on (size a + 2) (f.push [':', ':']))
      else if c = ':' ∧ s.head?.any isWordStart = true then
        bindParam params dialect (a ++ c :: s) (size a + 1) f
      else passChar (a ++ c :: s) (size a) f := by
  have hnone := spanEnd?_append a c s
  rw [h, Option.map_none] at hnone
  have hpair := opening_iff (d := ':') (e := ':') (by decide) (by decide) a c s
  have hparam : (lead c = ':' ∧ (octets (a ++ c :: s))[size a + 1]?.any isWordStart = true) ↔
      c = ':' ∧ s.head?.any isWordStart = true := by
    rw [lead_eq_iff (by decide)]
    refine and_congr_right ?_
    rintro rfl
    rw [any_next asciiOnly_isWordStart (by decide)]
  rw [fillRound, hnone, ok_bind]
  simp only [octet_append, ok_bind]
  exact if_congr hpair rfl (if_congr hparam rfl rfl)

theorem fillRound_pair (a s : List Char) :
    fillRound params dialect (a ++ ([':', ':'] ++ s)) (size a) f =
      .ok (.on (size (a ++ [':', ':'])) (f.push [':', ':'])) := by
  have h : fillRound params dialect (a ++ ':' :: ':' :: s) (size a) f = _ :=
    fillRound_of_enclosed?_eq_none (enclosed?_colon _ _)
  rw [if_pos ⟨rfl, rfl⟩] at h
  rw [size_append]
  exact h

/-- At a parameter, its name is all of the word behind the colon. -/
theorem fillRound_param (hname : isIdentifier name = true) (hs : EndsWord s) :
    fillRound params dialect (a ++ (':' :: name ++ s)) (size a) f =
      match params.get? (.ofList name) with
      | none => .ok (.done (.error (.missingParam (.ofList name))))
      | some v => .ok (.on (size (a ++ ':' :: name)) (f.bind dialect v)) := by
  have hword := isWordChar_of_isIdentifier hname
  have htake : (name ++ s).takeWhile isWordChar = name := by
    rw [hs.takeWhile_append, List.takeWhile_eq_self_iff.2 hword]
  have hcolon : size (a ++ [':']) = size a + 1 := by
    rw [size_append, size_singleton (by decide)]
  have hstop := wordEnd_append (a ++ [':']) (name ++ s)
  have hslice := slice_append (a ++ [':']) name s
  rw [htake] at hstop
  rw [hcolon, List.append_assoc, List.singleton_append] at hstop hslice
  have hend : size a + 1 + size name = size (a ++ ':' :: name) := by
    rw [size_append, size_cons, size_singleton (by decide), Nat.add_assoc]
  have hstart : (name ++ s).head? ≠ some ':' ∧ (name ++ s).head?.any isWordStart = true := by
    cases name with
    | nil => cases hname
    | cons d name =>
      have hd : isWordStart d = true := (Bool.and_eq_true_iff.1 hname).1
      refine ⟨?_, hd⟩
      rintro ⟨⟩
      exact absurd hd (by decide)
  rw [List.cons_append, fillRound_of_enclosed?_eq_none (enclosed?_colon _ _),
    if_neg fun h => hstart.1 h.2, if_pos ⟨rfl, hstart.2⟩, bindParam, hstop, ok_bind, hslice,
    ok_bind, hend]

theorem fillRound_char (h : enclosed? (a.getLast?.any isWordChar) c s = none)
    (hlone : IsLone c s) : fillRound params dialect (a ++ ([c] ++ s)) (size a) f =
      .ok (.on (size (a ++ [c])) (f.push [c])) := by
  have hrest := slice_append_size a (c :: s)
  have hslice := slice_append a [c] s
  rw [List.singleton_append] at hslice ⊢
  rw [fillRound_of_enclosed?_eq_none h, if_neg, if_neg, passChar, hrest, ok_bind]
  · simp only [List.head?_cons, Option.elim_some, hslice, ok_bind, size_append]
  · rintro ⟨rfl, hstart⟩
    obtain ⟨d, hd, hword⟩ := (Option.any_eq_true _ _).1 hstart
    rw [(hlone rfl d hd).2] at hword
    cases hword
  · rintro ⟨rfl, hcolon⟩
    exact (hlone rfl ':' hcolon).1 rfl

variable (params dialect) in
/-- From every place on, filling by positions finds what the text is filled to. -/
theorem scan_fillRound (afterWord : Bool) (s : List Char) : ∀ (a : List Char) (f : Filling),
    a.getLast?.any isWordChar = afterWord →
      scan (fillRound params dialect) (fun _ f => .ok (.ok (f.out, f.values))) (a ++ s) (size a) f =
        .ok ((filled params dialect f.values.length afterWord s).map fun rest =>
          (f.out ++ rest.1, f.values ++ rest.2)) := by
  -- Each round gets behind what is passed, and what is written and bound then comes first.
  have kept : ∀ {content : List Char} {f : Filling}
      {rest : Except Failure (List Char × List Value)},
      (rest.map (keep content)).map (fun rest => (f.out ++ rest.1, f.values ++ rest.2)) =
        rest.map fun rest =>
          ((f.push content).out ++ rest.1, (f.push content).values ++ rest.2) := by
    intro content f rest
    cases rest with
    | error e => rfl
    | ok rest => simp only [Except.map, keep, Filling.push, List.append_assoc]
  induction afterWord, s using passage_induction with
  | nil afterWord =>
    intro a f ha
    rw [List.append_nil, scan_nil, filled_nil]
    simp only [Except.map, List.append_nil]
  | span afterWord span s hspan ih =>
    intro a f ha
    subst ha
    rw [scan_on hspan.ne_nil (fillRound_span hspan), ih _ _ (getLast?_any_append hspan.ne_nil a),
      filled_span hspan, kept]
    rfl
  | pair afterWord s ih =>
    intro a f ha
    have hlast : (a ++ [':', ':']).getLast?.any isWordChar = false :=
      getLast?_any_append (List.cons_ne_nil _ _) a
    change scan _ _ (a ++ ([':', ':'] ++ s)) _ _ = _
    rw [scan_on (List.cons_ne_nil _ _) (fillRound_pair a s), ih _ _ hlast, filled_pair, kept]
    rfl
  | param afterWord name s hname hs ih =>
    intro a f ha
    have hround : fillRound params dialect (a ++ (':' :: name ++ s)) (size a) f = _ :=
      fillRound_param hname hs
    rw [filled_param hname hs]
    cases hv : params.get? (.ofList name) with
    | none =>
      rw [hv] at hround
      rw [scan_done (by simp) hround]
      rfl
    | some v =>
      have hlast : (a ++ ':' :: name).getLast?.any isWordChar = true := by
        rw [List.append_cons, getLast?_any_append (ne_nil_of_isIdentifier hname),
          getLast?_any_of_isIdentifier hname]
      rw [hv] at hround
      rw [scan_on (List.cons_ne_nil _ _) hround, ih _ _ hlast, Filling.bind, List.length_append]
      simp only [List.length_singleton]
      cases filled params dialect (f.values.length + 1) true s with
      | error e => rfl
      | ok rest => simp only [Except.map, List.append_assoc, List.singleton_append]
  | char afterWord c s hspan hlone ih =>
    intro a f ha
    subst ha
    have hlast : (a ++ [c]).getLast?.any isWordChar = isWordChar c :=
      getLast?_any_append (List.cons_ne_nil _ _) a
    change scan _ _ (a ++ ([c] ++ s)) _ _ = _
    rw [scan_on (List.cons_ne_nil _ _) (fillRound_char hspan hlone), ih _ _ hlast,
      filled_char hspan hlone, kept]
    rfl

/-- Filling by positions makes no slip. -/
theorem expandAt_eq (sql : String) (params : Params) (dialect : Dialect) :
    expandAt sql params dialect = .ok (expand sql params dialect) := by
  have h := scan_fillRound params dialect false sql.toList [] ⟨[], []⟩ rfl
  rw [List.nil_append, size_nil] at h
  rw [expandAt, h, ok_bind, expand, pieces, tokens, filled]
  cases fill params dialect 0 (piecesOf (tokensFrom false sql.toList)) <;> rfl

end

/-! ### Cutting a script -/

/-- A piece of a script without the blanks around it, if it says something. -/
def ofPiece (code : Bool) (piece : List Char) : List String :=
  if code then [.ofList (trimmed piece)] else []

/-- The statements that are found, where the one at hand starts, and how far it has come. -/
structure Cutting where
  found : List String
  start : Nat
  progress : Progress

/-- A word begins at the position, of which the byte is given. -/
def beginsWord (s : List Char) (b : Char) (i : Nat) : Except Slip Bool :=
  if isWordStart b then do
    let behindWord ← isBehindWord s i
    .ok (!behindWord)
  else .ok false

/-- The progress behind a word.  A leading `BEGIN` opens a transaction, not a block. -/
def Progress.afterWord (p : Progress) (word : List Char) : Progress where
  depth :=
    if p.code ∧ (sameWord word "begin".toList ∨ sameWord word "case".toList) then p.depth + 1
    else if sameWord word "end".toList then p.depth - 1
    else p.depth
  code := true

/-- The word that begins at the position. -/
def passWord (s : List Char) (i : Nat) (cutting : Cutting) :
    Except Slip (Turn Cutting (List String)) := do
  let stop ← wordEnd s i
  let word ← slice s i stop
  .ok (.on stop { cutting with progress := cutting.progress.afterWord word })

/-- One round of cutting: a span, a cut, a word or a byte. -/
def cutRound (s : List Char) (i : Nat) (cutting : Cutting) :
    Except Slip (Turn Cutting (List String)) := do
  let p := cutting.progress
  match ← spanEnd? s i with
  | some stop =>
    let b ← octet s i
    let code := if b = '-' ∨ b = '/' then p.code else true
    .ok (.on stop { cutting with progress := { p with code } })
  | none =>
    let b ← octet s i
    if b = ';' ∧ p.depth = 0 then
      let piece ← slice s cutting.start i
      .ok (.on (i + 1) ⟨cutting.found ++ ofPiece p.code piece, i + 1, .start⟩)
    else
      let word ← beginsWord s b i
      if word then passWord s i cutting
      else
        let code := if isAsciiBlank b then p.code else true
        .ok (.on (i + 1) { cutting with progress := { p with code } })

/-- What is behind the last cut is a piece too. -/
def lastCut (s : List Char) (cutting : Cutting) : Except Slip (List String) := do
  let piece ← slice s cutting.start (size s)
  .ok (cutting.found ++ ofPiece cutting.progress.code piece)

/-- The statements of a script, found by positions. -/
def statementsAt (script : String) : Except Slip (List String) :=
  scan cutRound lastCut script.toList 0 ⟨[], 0, .start⟩

/-- The statements of the rest of a script, of which `piece` was read of the statement at hand. -/
def statementsFrom (piece : List Char) (p : Progress) : List Token → List String
  | [] => ofPiece p.code piece
  | t :: ts =>
    if p.isCut t then ofPiece p.code piece ++ statementsFrom [] .start ts
    else statementsFrom (piece ++ t.text) (p.after t) ts

/-- The statements that stretches of tokens write. -/
def ofStretches (stretches : List (List Token)) : List String :=
  stretches.flatMap fun stretch => ofPiece (stretch.any Token.isCode) (textOf stretch)

theorem ofStretches_eq (stretches : List (List Token)) : ofStretches stretches =
    (stretches.filter (·.any Token.isCode)).map fun stretch =>
      .ofList (trimmed (textOf stretch)) := by
  induction stretches with
  | nil => rfl
  | cons stretch stretches ih =>
    rw [ofStretches] at ih ⊢
    rw [List.flatMap_cons, ih, List.filter_cons, ofPiece]
    split <;> rfl

/-- What is read of a statement already stands before its first stretch. -/
theorem statementsFrom_eq (p : Progress) (ts : List Token) (piece : List Char) :
    ∃ first rest, stretches p ts = first :: rest ∧
      statementsFrom piece p ts =
        ofPiece (p.code || first.any Token.isCode) (piece ++ textOf first) ++
          ofStretches rest := by
  induction ts generalizing p piece with
  | nil =>
    refine ⟨[], [], rfl, ?_⟩
    rw [List.any_nil, Bool.or_false, textOf_nil, List.append_nil]
    exact (List.append_nil _).symm
  | cons t ts ih =>
    cases hcut : p.isCut t with
    | true =>
      obtain ⟨first, rest, hstretches, hfrom⟩ := ih .start []
      refine ⟨[], first :: rest, ?_, ?_⟩
      · rw [stretches, if_pos hcut, hstretches]
      · have hrest : statementsFrom [] .start ts = ofStretches (first :: rest) := hfrom
        rw [statementsFrom, if_pos hcut, hrest, List.any_nil, Bool.or_false, textOf_nil,
          List.append_nil]
    | false =>
      obtain ⟨first, rest, hstretches, hfrom⟩ := ih (p.after t) (piece ++ t.text)
      refine ⟨t :: first, rest, ?_, ?_⟩
      · rw [stretches, if_neg (by simp [hcut]), hstretches]
      · have hcode : ((p.after t).code || first.any Token.isCode) =
            (p.code || (t :: first).any Token.isCode) := by
          rw [Progress.after, List.any_cons, Bool.or_assoc]
        rw [statementsFrom, if_neg (by simp [hcut]), hfrom, hcode, textOf_cons, List.append_assoc]

theorem statements_eq (script : String) :
    statements script = statementsFrom [] .start (tokens script.toList) := by
  obtain ⟨first, rest, hstretches, hfrom⟩ := statementsFrom_eq .start (tokens script.toList) []
  rw [statements, ← ofStretches_eq, hstretches, hfrom]
  rfl

section
variable {b c : Char} {a s span word piece : List Char} {cutting : Cutting} {p : Progress}
  {found : List String}

/-- The first character of a span says whether it is a comment. -/
theorem IsSpan.beginsComment_iff {afterWord : Bool} (h : IsSpan afterWord (c :: span) s) :
    BeginsComment (c :: span) ↔ c = '-' ∨ c = '/' := by
  constructor
  · intro hcomment
    by_contra hneither
    exact not_beginsComment_cons (not_or.1 hneither) span hcomment
  · intro hc
    generalize hspan : c :: span = text at h ⊢
    cases h with
    | quoted hquote | openQuoted hquote =>
      cases hspan
      rcases hc with rfl | rfl <;> exact absurd hquote (by simp [IsQuote])
    | lineComment => exact .inl ⟨_, rfl⟩
    | comment | openComment => exact .inr ⟨_, rfl⟩
    | body | openBody =>
      cases hspan
      exact absurd hc (by decide)

theorem after_spanToken {afterWord : Bool} (h : IsSpan afterWord (c :: span) s) (p : Progress) :
    p.after (spanToken (c :: span)) =
      { p with code := if c = '-' ∨ c = '/' then p.code else true } := by
  rw [spanToken]
  by_cases hcomment : c = '-' ∨ c = '/'
  · rw [if_pos (h.beginsComment_iff.2 hcomment), if_pos hcomment]
    simp [Progress.after, Token.opensBlock, Token.closesBlock, Token.isCode]
  · rw [if_neg (mt h.beginsComment_iff.1 hcomment), if_neg hcomment]
    simp [Progress.after, Token.opensBlock, Token.closesBlock, Token.isCode]

theorem after_symbol (p : Progress) (c : Char) :
    p.after (.symbol c) = { p with code := if isAsciiBlank c then p.code else true } := by
  cases hblank : isAsciiBlank c <;>
    simp [Progress.after, Token.opensBlock, Token.closesBlock, Token.isCode, hblank]

theorem opensBlock_word : (Token.word word).opensBlock = true ↔
    sameWord word "begin".toList = true ∨ sameWord word "case".toList = true := by
  rw [Token.opensBlock, Bool.or_eq_true]

/-- No word both opens and closes a block. -/
theorem not_sameWord_end (h : (Token.word word).opensBlock = true) :
    sameWord word "end".toList = false := by
  rw [opensBlock_word] at h
  rw [sameWord, beq_eq_false_iff_ne]
  rcases h with h | h <;> rw [eq_of_beq h] <;> decide

theorem after_word (p : Progress) (word : List Char) : p.after (.word word) = p.afterWord word := by
  rw [Progress.after, Progress.afterWord, Token.isCode, Bool.or_true, Token.closesBlock]
  by_cases hopens : (Token.word word).opensBlock = true
  · have hblock := opensBlock_word.1 hopens
    rw [if_pos hopens, not_sameWord_end hopens]
    simp only [hblock, and_true, Bool.false_eq_true, if_false]
  · have hblock := mt opensBlock_word.2 hopens
    rw [if_neg hopens]
    simp only [hblock, and_false, if_false]

/-- A span is passed as a whole. -/
theorem cutRound_span (h : IsSpan (a.getLast?.any isWordChar) span s) :
    cutRound (a ++ (span ++ s)) (size a) cutting =
      .ok (.on (size (a ++ span))
        { cutting with progress := cutting.progress.after (spanToken span) }) := by
  have hspan := (measured_of_isSpan h).2
  obtain ⟨c, span, rfl⟩ := List.exists_cons_of_ne_nil h.ne_nil
  rw [cutRound, hspan, ok_bind, List.cons_append]
  simp only [octet_append, ok_bind, after_spanToken h, lead_eq_iff (show '-'.toNat < 128 by decide),
    lead_eq_iff (show '/'.toNat < 128 by decide)]

/-- Where no span begins, a cut, a word or a single byte is passed. -/
theorem cutRound_of_enclosed?_eq_none (h : enclosed? (a.getLast?.any isWordChar) c s = none) :
    cutRound (a ++ c :: s) (size a) cutting =
      if c = ';' ∧ cutting.progress.depth = 0 then do
        let piece ← slice (a ++ c :: s) cutting.start (size a)
        .ok (.on (size a + 1)
          ⟨cutting.found ++ ofPiece cutting.progress.code piece, size a + 1, .start⟩)
      else if isWordStart c = true ∧ a.getLast?.any isWordChar = false then
        passWord (a ++ c :: s) (size a) cutting
      else .ok (.on (size a + 1)
        { cutting with progress := cutting.progress.after (.symbol c) }) := by
  have hnone := spanEnd?_append a c s
  rw [h, Option.map_none] at hnone
  have hword : beginsWord (a ++ c :: s) (lead c) (size a) =
      .ok (isWordStart c && !a.getLast?.any isWordChar) := by
    rw [beginsWord, apply_lead asciiOnly_isWordStart, isBehindWord_append]
    cases isWordStart c <;> rfl
  rw [cutRound, hnone, ok_bind]
  simp only [octet_append, ok_bind, lead_eq_iff (show ';'.toNat < 128 by decide), hword,
    apply_lead asciiOnly_isAsciiBlank, after_symbol, Bool.and_eq_true, Bool.not_eq_true']

/-- Inside of a character nothing begins. -/
theorem cutRound_inside {k : Nat} (hpos : 0 < k) (hk : k < size [c])
    (hcode : cutting.progress.code = true) :
    cutRound (a ++ c :: s) (size a + k) cutting = .ok (.on (size a + k + 1) cutting) := by
  have hc := le_toNat_of_inside hpos hk
  obtain ⟨b, hb, hoctet⟩ := exists_octet hk a s
  have hword := asciiOnly_isWordStart.eq_false hc hb
  have hblank := asciiOnly_isAsciiBlank.eq_false hc hb
  have hsemicolon : b ≠ ';' := by
    rintro rfl
    exact absurd (le_toNat_of_mem_octets hc _ hb) (by decide)
  have hsame : { cutting.progress with code := true } = cutting.progress := by rw [← hcode]
  rw [cutRound, spanEnd?_inside hpos hk, ok_bind]
  simp only [hoctet, ok_bind, hsemicolon, false_and, if_false, beginsWord, hword, hblank,
    Bool.false_eq_true, hsame]

theorem cutRound_cut (hdepth : p.depth = 0) (b piece s : List Char) :
    cutRound ((b ++ piece) ++ ([';'] ++ s)) (size (b ++ piece)) ⟨found, size b, p⟩ =
      .ok (.on (size ((b ++ piece) ++ [';']))
        ⟨found ++ ofPiece p.code piece, size ((b ++ piece) ++ [';']), .start⟩) := by
  have hslice := slice_append b piece (';' :: s)
  rw [← size_append, ← List.append_assoc] at hslice
  rw [List.singleton_append, cutRound_of_enclosed?_eq_none (enclosed?_of_isPlain (by decide) _ _),
    if_pos ⟨rfl, hdepth⟩, hslice, ok_bind, size_append _ [';'], size_singleton (by decide)]

/-- A word is passed as a whole. -/
theorem cutRound_word (hword : isIdentifier word = true) (hs : EndsWord s)
    (ha : a.getLast?.any isWordChar = false) : cutRound (a ++ (word ++ s)) (size a) cutting =
      .ok (.on (size (a ++ word))
        { cutting with progress := cutting.progress.after (.word word) }) := by
  have hall := isWordChar_of_isIdentifier hword
  have hstop := wordEnd_append a (word ++ s)
  have hslice := slice_append a word s
  rw [hs.takeWhile_append, List.takeWhile_eq_self_iff.2 hall, ← size_append] at hstop
  rw [← size_append] at hslice
  cases word with
  | nil => cases hword
  | cons c word =>
    have hstart : isWordStart c = true := (Bool.and_eq_true_iff.1 hword).1
    have hplain := isPlain_of_isWordChar (isWordChar_of_isWordStart hstart)
    have hsemicolon : ¬ (c = ';' ∧ cutting.progress.depth = 0) := by
      rintro ⟨rfl, -⟩
      exact absurd hstart (by decide)
    rw [List.cons_append] at hstop hslice ⊢
    rw [cutRound_of_enclosed?_eq_none (enclosed?_of_isPlain hplain _ _), if_neg hsemicolon,
      if_pos ⟨hstart, ha⟩, passWord, hstop, ok_bind, hslice, ok_bind, after_word]

/-- A character that begins nothing and ends no statement is passed byte by byte. -/
theorem scan_cutRound_symbol (h : enclosed? (a.getLast?.any isWordChar) c s = none)
    (hword : ¬ (isWordStart c = true ∧ a.getLast?.any isWordChar = false))
    (hcut : cutting.progress.isCut (.symbol c) = false) :
    scan cutRound lastCut (a ++ c :: s) (size a) cutting =
      scan cutRound lastCut ((a ++ [c]) ++ s) (size (a ++ [c]))
        { cutting with progress := cutting.progress.after (.symbol c) } := by
  have hsemicolon : ¬ (c = ';' ∧ cutting.progress.depth = 0) := by
    rintro ⟨rfl, hdepth⟩
    rw [Progress.isCut, hdepth] at hcut
    cases hcut
  refine scan_char ?_ fun k hpos hk => cutRound_inside hpos hk ?_
  · rw [cutRound_of_enclosed?_eq_none h, if_neg hsemicolon, if_neg hword]
  · have hblank := asciiOnly_isAsciiBlank c (le_toNat_of_inside hpos hk)
    rw [after_symbol, hblank, if_neg Bool.false_ne_true]

/-- From every place on, cutting by positions finds the statements of the rest. -/
theorem scan_cutRound (afterWord : Bool) (s : List Char) :
    ∀ (b piece : List Char) (p : Progress) (found : List String),
      (b ++ piece).getLast?.any isWordChar = afterWord →
        scan cutRound lastCut ((b ++ piece) ++ s) (size (b ++ piece)) ⟨found, size b, p⟩ =
          .ok (found ++ statementsFrom piece p (tokensFrom afterWord s)) := by
  induction afterWord, s using tokensFrom_induction with
  | nil afterWord =>
    intro b piece p found ha
    have hslice := slice_append_size b piece
    rw [List.append_nil, scan_nil, lastCut, hslice, ok_bind, tokensFrom, statementsFrom]
  | span afterWord span s hspan ih =>
    intro b piece p found ha
    subst ha
    have hlast : (b ++ (piece ++ span)).getLast?.any isWordChar =
        span.getLast?.any isWordChar := by
      rw [← List.append_assoc, getLast?_any_append hspan.ne_nil]
    have hcut : p.isCut (spanToken span) = false := by
      rw [spanToken, Progress.isCut]
      split <;> exact Bool.and_false _
    rw [scan_on hspan.ne_nil (cutRound_span hspan), List.append_assoc b, ih _ _ _ _ hlast,
      tokensFrom_span hspan, statementsFrom, hcut, if_neg Bool.false_ne_true, text_spanToken]
  | word word s hword hends ih =>
    intro b piece p found ha
    have hne := ne_nil_of_isIdentifier hword
    have hlast : (b ++ (piece ++ word)).getLast?.any isWordChar = true := by
      rw [← List.append_assoc, getLast?_any_append hne, getLast?_any_of_isIdentifier hword]
    have hcut : p.isCut (.word word) = false := Bool.and_false _
    rw [scan_on hne (cutRound_word hword hends ha), List.append_assoc b, ih _ _ _ _ hlast,
      tokensFrom_word hword hends, statementsFrom, hcut, if_neg Bool.false_ne_true, Token.text]
  | symbol afterWord c s hspan hword ih =>
    intro b piece p found ha
    subst ha
    rw [tokensFrom_single hspan hword, statementsFrom]
    cases hcut : p.isCut (.symbol c) with
    | true =>
      obtain ⟨hc, hdepth⟩ := eq_semicolon_of_isCut hcut
      cases hc
      have hlast : (((b ++ piece) ++ [';']) ++ []).getLast?.any isWordChar = isWordChar ';' := by
        rw [List.append_nil]
        exact getLast?_any_append (List.cons_ne_nil _ _) _
      have hrest := ih ((b ++ piece) ++ [';']) [] .start (found ++ ofPiece p.code piece) hlast
      rw [List.append_nil, List.append_assoc found] at hrest
      rw [if_pos rfl]
      change scan _ _ ((b ++ piece) ++ ([';'] ++ s)) _ _ = _
      rw [scan_on (List.cons_ne_nil _ _) (cutRound_cut hdepth b piece s), hrest]
    | false =>
      have hlast : (b ++ (piece ++ [c])).getLast?.any isWordChar = isWordChar c := by
        rw [← List.append_assoc]
        exact getLast?_any_append (List.cons_ne_nil _ _) _
      have henclosed := Option.not_isSome_iff_eq_none.1 (mt beginsSpan_iff.2 hspan)
      rw [if_neg Bool.false_ne_true, scan_cutRound_symbol henclosed hword hcut,
        List.append_assoc b, ih _ _ _ _ hlast, Token.text]

/-- Cutting by positions makes no slip. -/
theorem statementsAt_eq (script : String) : statementsAt script = .ok (statements script) := by
  have h := scan_cutRound false script.toList [] [] .start [] rfl
  rw [List.append_nil, List.nil_append, size_nil] at h
  rw [statementsAt, h, statements_eq, tokens, List.nil_append]

/-- **No slip.**  Whatever the text is, parameters are filled and statements are cut by positions
without reading a byte that is not there, cutting inside a character or outside of the text, or
staying at one place; what they find are the expansion and the statements.  The end of a span may be
looked for at every position, and where one is found it is further on and between two characters. -/
theorem scanned_by_positions :
    (∀ (sql : String) (params : Params) (dialect : Dialect),
      expandAt sql params dialect = .ok (expand sql params dialect)) ∧
    (∀ script : String, statementsAt script = .ok (statements script)) ∧
    ∀ (s : List Char) (i : Nat), i < size s → ∃ stop?, spanEnd? s i = .ok stop? ∧
      ∀ j ∈ stop?, i < j ∧ ∃ before rest, s = before ++ rest ∧ j = size before :=
  ⟨expandAt_eq, statementsAt_eq, fun _ _ => exists_spanEnd?⟩

end

end RecordLayer.Sql
