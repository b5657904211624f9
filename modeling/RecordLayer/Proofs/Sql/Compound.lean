import RecordLayer.Proofs.Sql.Block

/-!
# Compound bodies

The body of a procedure is made of statements, of nested blocks, and of control-flow statements
that two words close: `END IF`, `END CASE`, `END LOOP` and so on (`IsCompound`).  The scanner
counts single words, so that each of these leaves the count off by one: the `END` of `END IF`
closes a block that no word opened, and the `CASE` of `END CASE` opens one that no word closes.

`statements_compound_iff` says what that does.  A definition stays whole exactly if the `CASE`
statements in its body are as many as the others, and in front of each semicolon the words that
close blocks do not outnumber those that open them.  So a body with one control-flow statement
never stays whole; bodies of plain statements and nested blocks do (`IsCompound.statements_eq`).

`Keeps m ts n` says that tokens behind `m` open blocks or more close none that is not open, and
leave `n` or more; a compound body keeps one (`IsCompound.keeps`), and so the height of the body
tells where it is cut.
-/

namespace RecordLayer.Sql
open Text

/-! ### Grammar -/

/-- The words that begin a control-flow statement and end it behind `END`; `CASE` is one more. -/
def controlWords : List String := ["IF", "LOOP", "WHILE", "REPEAT"]

/-- A body with some number of `CASE` statements and some number of other control-flow statements.
In front of a statement may stand a label or the head of a branch (`x < 0 THEN`, `DO`,
`WHEN 1 THEN`, `ELSE`), and behind the last one what ends the branches (`UNTIL done`). -/
inductive IsCompound : Nat → Nat → List Token → Prop where
  | last {ts} (h : IsBlockless ts) : IsCompound 0 0 ts
  | plain {choices controls ts rest} (hts : IsBlockless ts)
      (hrest : IsCompound choices controls rest) :
      IsCompound choices controls (ts ++ .symbol ';' :: rest)
  | block {choices controls choices' controls' lead opener inner closer trail rest}
      (hlead : IsBlockless lead) (hopener : opener.isWord "BEGIN" = true)
      (hinner : IsCompound choices controls inner) (hcloser : closer.isWord "END" = true)
      (htrail : IsBlockless trail) (hrest : IsCompound choices' controls' rest) :
      IsCompound (choices + choices') (controls + controls')
        (lead ++ opener :: (inner ++ closer :: (trail ++ .symbol ';' :: rest)))
  | choice {choices controls choices' controls' lead opener inner closer gap word trail rest}
      (hlead : IsBlockless lead) (hopener : opener.isWord "CASE" = true)
      (hinner : IsCompound choices controls inner) (hcloser : closer.isWord "END" = true)
      (hgap : IsBlockless gap) (hword : word.isWord "CASE" = true) (htrail : IsBlockless trail)
      (hrest : IsCompound choices' controls' rest) :
      IsCompound (choices + choices' + 1) (controls + controls')
        (lead ++ opener :: (inner ++ closer :: (gap ++ word :: (trail ++ .symbol ';' :: rest))))
  | control {choices controls choices' controls' lead name opener inner closer gap word trail rest}
      (hlead : IsBlockless lead) (hname : name ∈ controlWords) (hopener : opener.isWord name = true)
      (hinner : IsCompound choices controls inner) (hcloser : closer.isWord "END" = true)
      (hgap : IsBlockless gap) (hword : word.isWord name = true) (htrail : IsBlockless trail)
      (hrest : IsCompound choices' controls' rest) :
      IsCompound (choices + choices') (controls + controls' + 1)
        (lead ++ opener :: (inner ++ closer :: (gap ++ word :: (trail ++ .symbol ';' :: rest))))

/-- A body of one statement. -/
theorem IsCompound.single {ts rest : List Token} (hts : IsBlockless ts) (hrest : IsBlockless rest) :
    IsCompound 0 0 (ts ++ .symbol ';' :: rest) :=
  .plain hts (.last hrest)

theorem IsCompound.of_eq {choices controls : Nat} {ts us : List Token}
    (h : IsCompound choices controls us) (heq : ts = us) : IsCompound choices controls ts :=
  heq ▸ h

section
variable {t : Token} {ts : List Token} {name : String} {choices controls : Nat}

theorem isBlockless_of_isControl (hname : name ∈ controlWords) (h : t.isWord name = true) :
    IsBlockless [t] := by
  have hnames : ∀ name ∈ controlWords, (Token.word name.toList).opensBlock = false ∧
      (Token.word name.toList).closesBlock = false := by decide
  obtain ⟨hopens, hcloses⟩ := hnames name hname
  intro u hu
  obtain rfl := List.mem_singleton.1 hu
  obtain ⟨w, rfl, -⟩ := folded_of_isWord h
  refine ⟨Token.noConfusion, ?_, ?_⟩
  · rw [opensBlock_of_isWord h, hopens]
  · rw [closesBlock_of_isWord h, hcloses]

/-! ### Heights of bodies -/

theorem IsBlockless.height_eq (h : IsBlockless ts) : height ts = 0 := by
  induction ts with
  | nil => rfl
  | cons t ts ih =>
    obtain ⟨⟨-, hopens, hcloses⟩, hts⟩ := List.forall_mem_cons.1 h
    rw [height_cons, ih hts, Token.blockStep, hopens, hcloses]
    rfl

theorem blockStep_begin (h : t.isWord "BEGIN" = true) : t.blockStep = 1 :=
  blockStep_of_isWord h

theorem blockStep_case (h : t.isWord "CASE" = true) : t.blockStep = 1 :=
  blockStep_of_isWord h

theorem blockStep_end (h : t.isWord "END" = true) : t.blockStep = -1 :=
  blockStep_of_isWord h

theorem blockStep_semicolon : (Token.symbol ';').blockStep = 0 := rfl

theorem blockStep_control (hname : name ∈ controlWords) (h : t.isWord name = true) :
    t.blockStep = 0 := by
  simpa using (isBlockless_of_isControl hname h).height_eq

/-- Each `CASE` statement leaves a block open, and each other control-flow statement closes one. -/
theorem IsCompound.height_eq (h : IsCompound choices controls ts) :
    height ts = choices - controls := by
  induction h with
  | last h => simp [h.height_eq]
  | plain hts _ ih => simp [hts.height_eq, blockStep_semicolon, ih]
  | block hlead hopener _ hcloser htrail _ ihinner ihrest =>
    simp only [height_append, height_cons, hlead.height_eq, blockStep_begin hopener, ihinner,
      blockStep_end hcloser, htrail.height_eq, blockStep_semicolon, ihrest]
    omega
  | choice hlead hopener _ hcloser hgap hword htrail _ ihinner ihrest =>
    simp only [height_append, height_cons, hlead.height_eq, blockStep_case hopener, ihinner,
      blockStep_end hcloser, hgap.height_eq, blockStep_case hword, htrail.height_eq,
      blockStep_semicolon, ihrest]
    omega
  | control hlead hname hopener _ hcloser hgap hword htrail _ ihinner ihrest =>
    simp only [height_append, height_cons, hlead.height_eq, blockStep_control hname hopener,
      ihinner, blockStep_end hcloser, hgap.height_eq, blockStep_control hname hword,
      htrail.height_eq, blockStep_semicolon, ihrest]
    omega

end

/-! ### Blocks to close -/

/-- Where `m` blocks or more are open, every word that closes a block has one to close up to the
first cut, and if there is no cut, `n` or more are left. -/
def Keeps (m : Nat) (ts : List Token) (n : Nat) : Prop :=
  ∀ d, m ≤ d → Matched d ts ∧ (Uncut ⟨d, true⟩ ts → n ≤ ts.foldl blocksBehind d)

namespace Keeps
variable {m n k : Nat} {t : Token} {ts us : List Token}

theorem append (h : Keeps m ts n) (h' : Keeps n us k) : Keeps m (ts ++ us) k := by
  intro d hd
  obtain ⟨hmatched, hleft⟩ := h d hd
  refine ⟨hmatched.append fun huncut => (h' _ (hleft huncut)).1, fun huncut => ?_⟩
  obtain ⟨hts, hus⟩ := uncut_append_iff.1 huncut
  rw [foldl_after_mk] at hus
  rw [List.foldl_append]
  exact (h' _ (hleft hts)).2 hus

theorem of_le (h : Keeps m ts n) {m' : Nat} (hm : m ≤ m') : Keeps m' ts n :=
  fun d hd => h d (hm.trans hd)

theorem singleton (hcloses : t.closesBlock = true → 0 < m)
    (hleft : ∀ d, m ≤ d → (t = .symbol ';' → d ≠ 0) → n ≤ blocksBehind d t) : Keeps m [t] n := by
  intro d hd
  refine ⟨matched_singleton_iff.2 fun ht => ?_, fun huncut => hleft d hd ?_⟩
  · have hpos := hcloses ht
    omega
  · exact not_isCut_iff.1 huncut.of_cons.1

theorem of_isBlockless (h : IsBlockless ts) (m : Nat) : Keeps m ts m := by
  intro d hd
  have hmatched : Matched d ts := by
    rintro front t back rfl - ht
    rw [(h t (by simp)).2.2] at ht
    cases ht
  refine ⟨hmatched, fun huncut => ?_⟩
  have hopen := hmatched.depth_eq huncut
  rw [h.height_eq] at hopen
  omega

theorem of_opensBlock (h : t.opensBlock = true) : Keeps 0 [t] 1 := by
  refine singleton (fun hcloses => ?_) fun d _ _ => ?_
  · rw [opensBlock_of_closesBlock hcloses] at h
    cases h
  · rw [blocksBehind, if_pos h]
    omega

/-- A token closes no more than one block. -/
theorem token (t : Token) : Keeps 1 [t] 0 :=
  singleton (fun _ => Nat.one_pos) fun _ _ _ => Nat.zero_le _

/-- Behind a semicolon that is no cut a block is open. -/
theorem semicolon : Keeps 0 [.symbol ';'] 1 :=
  singleton Bool.false_ne_true.elim fun _ _ hopen => Nat.one_le_iff_ne_zero.2 (hopen rfl)

/-- The end of a statement, and the statements behind it. -/
theorem ended (hts : IsBlockless ts) (hus : Keeps 1 us 1) : Keeps 0 (ts ++ .symbol ';' :: us) 1 :=
  (of_isBlockless hts 0).append (semicolon.append hus)

end Keeps

/-- In a block, a compound body closes no block but its own until it is cut. -/
theorem IsCompound.keeps {choices controls : Nat} {ts : List Token}
    (h : IsCompound choices controls ts) : Keeps 1 ts 1 := by
  have hbegin : ∀ {t : Token}, t.isWord "BEGIN" = true → Keeps 0 [t] 1 :=
    fun ht => .of_opensBlock (opensBlock_of_isWord ht)
  have hcase : ∀ {t : Token}, t.isWord "CASE" = true → Keeps 0 [t] 1 :=
    fun ht => .of_opensBlock (opensBlock_of_isWord ht)
  induction h with
  | last h => exact .of_isBlockless h 1
  | plain hts _ ih => exact (Keeps.ended hts ih).of_le (Nat.zero_le 1)
  | @block _ _ _ _ _ _ _ closer _ _ hlead hopener _ _ htrail _ ihinner ihrest =>
    have hopening := (hbegin hopener).of_le (Nat.zero_le 1)
    have hclosing := (Keeps.token closer).append (Keeps.ended htrail ihrest)
    exact (Keeps.of_isBlockless hlead 1).append (hopening.append (ihinner.append hclosing))
  | @choice _ _ _ _ _ _ _ closer _ _ _ _ hlead hopener _ _ hgap hword htrail _ ihinner ihrest =>
    have hopening := (hcase hopener).of_le (Nat.zero_le 1)
    have hending := (hcase hword).append ((Keeps.ended htrail ihrest).of_le (Nat.zero_le 1))
    have hclosing := (Keeps.token closer).append
      ((Keeps.of_isBlockless hgap 0).append hending)
    exact (Keeps.of_isBlockless hlead 1).append (hopening.append (ihinner.append hclosing))
  | @control _ _ _ _ _ _ _ _ closer _ _ _ _ hlead hname hopener _ _ hgap hword htrail _ ihinner
      ihrest =>
    have hopening := Keeps.of_isBlockless (isBlockless_of_isControl hname hopener) 1
    have hending := (Keeps.of_isBlockless (isBlockless_of_isControl hname hword) 0).append
      (Keeps.ended htrail ihrest)
    have hclosing := (Keeps.token closer).append
      ((Keeps.of_isBlockless hgap 0).append hending)
    exact (Keeps.of_isBlockless hlead 1).append (hopening.append (ihinner.append hclosing))

/-! ### Bodies without control-flow statements -/

section
variable {ts us : List Token}

theorem prefix_append_cases {front : List Token} (h : front <+: ts ++ us) :
    front <+: ts ∨ ∃ more, front = ts ++ more ∧ more <+: us := by
  obtain ⟨back, hback⟩ := h
  rcases List.append_eq_append_iff.1 hback with ⟨more, rfl, -⟩ | ⟨more, rfl, rfl⟩
  · exact .inl (List.prefix_append _ _)
  · exact .inr ⟨more, rfl, List.prefix_append _ _⟩

theorem IsBlockless.balanced (h : IsBlockless ts) : Balanced ts := by
  refine ⟨fun front hfront => ?_, h.height_eq⟩
  have hblockless : IsBlockless front := fun t ht => h t (hfront.subset ht)
  exact Int.le_of_eq hblockless.height_eq.symm

theorem Balanced.append (h : Balanced ts) (h' : Balanced us) : Balanced (ts ++ us) := by
  refine ⟨fun front hfront => ?_, by rw [height_append, h.even, h'.even]; rfl⟩
  rcases prefix_append_cases hfront with hfront | ⟨more, rfl, hmore⟩
  · exact h.nonneg front hfront
  · rw [height_append, h.even, Int.zero_add]
    exact h'.nonneg more hmore

/-- A block around tokens that balance. -/
theorem Balanced.block {opener closer : Token} (h : Balanced ts) (hopener : opener.blockStep = 1)
    (hcloser : closer.blockStep = -1) : Balanced (opener :: (ts ++ [closer])) := by
  refine ⟨fun front hfront => ?_, by simp [h.even, hopener, hcloser]⟩
  rcases List.prefix_cons_iff.1 hfront with rfl | ⟨inside, rfl, hinside⟩
  · exact Int.le_refl 0
  · rw [height_cons, hopener]
    rcases prefix_append_cases hinside with hinner | ⟨more, rfl, hmore⟩
    · have hnonneg := h.nonneg inside hinner
      omega
    · rw [height_append, h.even]
      rcases List.prefix_cons_iff.1 hmore with rfl | ⟨rest, rfl, hrest⟩
      · decide
      · rw [List.prefix_nil.1 hrest, height_cons, hcloser]
        decide

end

/-- Bodies of plain statements and nested blocks balance. -/
theorem IsCompound.balanced {choices controls : Nat} {ts : List Token}
    (h : IsCompound choices controls ts) (hchoices : choices = 0) (hcontrols : controls = 0) :
    Balanced ts := by
  have hsemicolon : Balanced [.symbol ';'] := by decide
  induction h with
  | last h => exact h.balanced
  | plain hts _ ih => exact hts.balanced.append (hsemicolon.append (ih hchoices hcontrols))
  | @block _ _ _ _ lead opener inner closer trail rest hlead hopener _ hcloser htrail _ ihinner
      ihrest =>
    have hinner := ihinner (by omega) (by omega)
    have hblock := hinner.block (blockStep_begin hopener) (blockStep_end hcloser)
    have hrest := htrail.balanced.append (hsemicolon.append (ihrest (by omega) (by omega)))
    have hall := hlead.balanced.append (hblock.append hrest)
    simpa using hall
  | choice => omega
  | control => omega

/-! ### Definitions -/

/-- A definition stays whole if there are no control-flow statements in its body. -/
theorem IsCompound.statements_eq {p b : String} {ps bs : List Token} (hp : ReadsAs p.toList ps)
    (hhead : IsHeading ps) (hb : ReadsAs b.toList bs) (hbody : IsCompound 0 0 bs) (r : String) :
    statements (p ++ " BEGIN " ++ b ++ " END" ++ ";" ++ r) =
      trim (p ++ " BEGIN " ++ b ++ " END") :: statements r := by
  have hbalanced := hbody.balanced rfl rfl
  rw [statements_definition_iff hp hhead hb hbalanced.matched]
  exact ⟨hbalanced.covered, Int.le_of_eq hbalanced.even⟩

/-- **Compound bodies.**  A definition stays whole, and the script behind its semicolon is split as
if it stood alone, exactly if the `CASE` statements in its body are as many as the other
control-flow statements and in front of each semicolon the words that close blocks do not outnumber
those that open them. -/
theorem statements_compound_iff {p b : String} {ps bs : List Token} {choices controls : Nat}
    (hp : ReadsAs p.toList ps) (hhead : IsHeading ps) (hb : ReadsAs b.toList bs)
    (hbody : IsCompound choices controls bs) (r : String) :
    statements (p ++ " BEGIN " ++ b ++ " END" ++ ";" ++ r) =
        trim (p ++ " BEGIN " ++ b ++ " END") :: statements r ↔
      choices = controls ∧ Covered bs := by
  obtain ⟨hmatched, hleft⟩ := hbody.keeps 1 le_rfl
  rw [statements_definition_iff hp hhead hb hmatched, and_comm]
  refine and_congr_left fun hcovered => ?_
  have huncut := hmatched.uncut_iff_covered.2 hcovered
  have hopen := hmatched.depth_eq huncut
  have hone := hleft huncut
  rw [hbody.height_eq] at hopen ⊢
  omega

/-- What leads up to the body of a procedure. -/
def clampHeading : String := "CREATE PROCEDURE clamp()"

/-- A body with a `CASE` statement and a loop. -/
def clampBody : String :=
  "CASE @n WHEN 0 THEN SET @n = 1; END CASE; while @n < 3 DO SET @n = 3; end while;"

theorem isCompound_clampBody : IsCompound 1 1 (tokens clampBody.toList) := by
  have hset : IsCompound 0 0 (tokens " @n WHEN 0 THEN SET @n = 1".toList ++
      Token.symbol ';' :: [Token.symbol ' ']) := .single (by decide +kernel) (by decide)
  have hadd : IsCompound 0 0 (tokens " @n < 3 DO SET @n = 3".toList ++
      Token.symbol ';' :: [Token.symbol ' ']) := .single (by decide +kernel) (by decide)
  have hloop : IsCompound 0 1 ([Token.symbol ' '] ++ Token.word "while".toList ::
      (_ ++ Token.word "end".toList :: ([Token.symbol ' '] ++ Token.word "while".toList ::
        ([] ++ Token.symbol ';' :: [])))) :=
    IsCompound.control (by decide) (show "WHILE" ∈ controlWords by decide) (by decide +kernel) hadd
      (by decide +kernel) (by decide) (by decide +kernel) (by decide) (.last (by decide))
  have hall : IsCompound 1 1 ([] ++ Token.word "CASE".toList :: (_ ++ Token.word "END".toList ::
      ([Token.symbol ' '] ++ Token.word "CASE".toList :: ([] ++ Token.symbol ';' :: _)))) :=
    IsCompound.choice (by decide) (by decide +kernel) hset (by decide +kernel) (by decide)
      (by decide +kernel) (by decide) hloop
  exact hall.of_eq (by decide +kernel)

/-- The loop closes what the `CASE` statement left open, and the procedure stays whole. -/
theorem statements_procedure_clamp :
    ReadsAs clampHeading.toList (tokens clampHeading.toList) ∧
      IsHeading (tokens clampHeading.toList) ∧
      ReadsAs clampBody.toList (tokens clampBody.toList) ∧
      IsCompound 1 1 (tokens clampBody.toList) ∧
      statements (clampHeading ++ " BEGIN " ++ clampBody ++ " END" ++ ";" ++ "DROP TABLE nodes") =
        trim (clampHeading ++ " BEGIN " ++ clampBody ++ " END") ::
          statements "DROP TABLE nodes" := by
  have hp : ReadsAs clampHeading.toList (tokens clampHeading.toList) := by decide +kernel
  have hhead : IsHeading (tokens clampHeading.toList) := by decide +kernel
  have hb : ReadsAs clampBody.toList (tokens clampBody.toList) := by decide +kernel
  have hcovered : Covered (tokens clampBody.toList) := by decide +kernel
  have hwhole := statements_compound_iff hp hhead hb isCompound_clampBody "DROP TABLE nodes"
  exact ⟨hp, hhead, hb, isCompound_clampBody, hwhole.2 ⟨rfl, hcovered⟩⟩

/-- A body with a condition. -/
def conditionBody : String := "IF @n < 0 THEN SET @n = 0; END IF; SET @m = 1;"

/-- A procedure whose body has a condition. -/
def conditionProcedure : String :=
  clampHeading ++ " BEGIN " ++ conditionBody ++ " END"

/-- A procedure with a condition is cut behind it, and the rest of its body into statements. -/
theorem statements_procedure_condition :
    ReadsAs clampHeading.toList (tokens clampHeading.toList) ∧
      IsHeading (tokens clampHeading.toList) ∧
      ReadsAs conditionBody.toList (tokens conditionBody.toList) ∧
      IsCompound 0 1 (tokens conditionBody.toList) ∧
      statements (conditionProcedure ++ ";" ++ "DROP TABLE nodes") =
        [clampHeading ++ " BEGIN IF @n < 0 THEN SET @n = 0; END IF", "SET @m = 1", "END",
          "DROP TABLE nodes"] ∧
      statements (conditionProcedure ++ ";" ++ "DROP TABLE nodes") ≠
        trim conditionProcedure :: statements "DROP TABLE nodes" := by
  have hset : IsCompound 0 0 (tokens " @n < 0 THEN SET @n = 0".toList ++
      Token.symbol ';' :: [Token.symbol ' ']) := .single (by decide +kernel) (by decide)
  have hrest : IsCompound 0 0 (tokens " SET @m = 1".toList ++ Token.symbol ';' :: []) :=
    .single (by decide +kernel) (by decide)
  have hall : IsCompound 0 1 ([] ++ Token.word "IF".toList :: (_ ++ Token.word "END".toList ::
      ([Token.symbol ' '] ++ Token.word "IF".toList :: ([] ++ Token.symbol ';' :: _)))) :=
    IsCompound.control (by decide) (show "IF" ∈ controlWords by decide) (by decide +kernel) hset
      (by decide +kernel) (by decide) (by decide +kernel) (by decide) hrest
  have hpieces : statements (conditionProcedure ++ ";" ++ "DROP TABLE nodes") =
        [clampHeading ++ " BEGIN IF @n < 0 THEN SET @n = 0; END IF", "SET @m = 1", "END",
          "DROP TABLE nodes"] := by decide +kernel
  refine ⟨by decide +kernel, by decide +kernel, by decide +kernel, hall.of_eq (by decide +kernel),
    hpieces, ?_⟩
  rw [hpieces]
  decide +kernel

end RecordLayer.Sql
