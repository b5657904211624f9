import RecordLayer.Proofs.Sql.Block
import RecordLayer.Proofs.Sql.Margin

/-!
# Reassembled scripts

The statements of a script may be written one under the other, with a semicolon between them, and
the script that they make has the same statements (`statements_joined`).  They are not the pieces
of the first script, since those were trimmed: a line comment at the end of a piece lost the
newline that closed it, and a quote that is never closed lost blanks.

A text that is a statement is split into itself alone (`IsStatement.statements_eq`), and one that
is ended stays so in front of others (`IsStatement.statements_append`).  In a script whose blanks
are those of ASCII every statement is of the first kind, and every one but the last is of the
second (`Divided.isSequence`).
-/

namespace RecordLayer.Sql
open Text

/-! ### Progress through a trimmed piece -/

section
variable {piece rest w : List Char}

/-- A piece says something if its end is reached with something said. -/
theorem says_iff_code : Says piece ↔ ((tokens piece).foldl Progress.after .start).code = true := by
  have hcode : ∀ (ts : List Token) (p : Progress),
      (ts.foldl Progress.after p).code = (p.code || ts.any Token.isCode) := by
    intro ts
    induction ts with
    | nil => simp
    | cons t ts ih => simp [ih, Progress.after, Bool.or_assoc]
  rw [says_iff, hcode]
  rfl

/-- Blanks are no progress. -/
theorem foldl_after_blanks (hw : ∀ c ∈ w, isAsciiBlank c = true) (p : Progress) :
    (w.map Token.symbol).foldl Progress.after p = p := by
  induction w with
  | nil => rfl
  | cons c w ih =>
    obtain ⟨hc, hw⟩ := List.forall_mem_cons.1 hw
    have hafter : p.after (.symbol c) = p := by
      simp [Progress.after, Token.isCode, Token.opensBlock, Token.closesBlock, hc]
    rw [List.map_cons, List.foldl_cons, hafter, ih hw]

/-- Trimming a piece changes no progress, and makes no cut. -/
theorem progress_trimmed (hascii : ∀ c ∈ piece, isBlank c = true → isAsciiBlank c = true) :
    (tokens (trimmed piece)).foldl Progress.after .start =
        (tokens piece).foldl Progress.after .start ∧
      (Uncut .start (tokens piece) → Uncut .start (tokens (trimmed piece))) := by
  obtain ⟨lead, behind, hblank, houtline⟩ := outline_trimmed piece
  have hlead (p : Progress) : (lead.map Token.symbol).foldl Progress.after p = p := by
    refine foldl_after_blanks (fun c hc => ?_) p
    obtain ⟨hmem, hblank⟩ := hblank c (List.mem_append_left _ hc)
    exact hascii c hmem hblank
  have hbehind (p : Progress) : (behind.map Token.symbol).foldl Progress.after p = p := by
    refine foldl_after_blanks (fun c hc => ?_) p
    obtain ⟨hmem, hblank⟩ := hblank c (List.mem_append_right _ hc)
    exact hascii c hmem hblank
  constructor
  · rw [← foldl_after_outline _ (tokens piece), houtline, List.foldl_append, List.foldl_append,
      hlead, hbehind, foldl_after_outline]
  · intro huncut
    rw [← uncut_outline_iff, houtline, uncut_append_iff, hlead, uncut_append_iff,
      uncut_outline_iff] at huncut
    exact huncut.2.1

end

/-! ### Statements and sequences of them -/

/-- The text is one statement. -/
structure IsStatement (s : String) : Prop where
  trim_eq : trim s = s
  code : Says s.toList
  uncut : Uncut .start (tokens s.toList)

/-- Behind a newline, a semicolon would end the text. -/
structure IsEnded (s : String) : Prop where
  reads : Reads false (tokens s.toList) ['\n']
  closed : openBlocks (tokens s.toList) = 0

/-- The texts are statements, and all but the last are ended. -/
inductive IsSequence : List String → Prop where
  | nil : IsSequence []
  | last {s} (h : IsStatement s) : IsSequence [s]
  | cons {s rest} (h : IsStatement s) (hended : IsEnded s) (hrest : IsSequence rest) :
      IsSequence (s :: rest)

theorem IsSequence.isStatement {texts : List String} (h : IsSequence texts) :
    ∀ s ∈ texts, IsStatement s := by
  induction h with
  | nil => simp
  | last h => simpa using h
  | cons h _ _ ih => exact List.forall_mem_cons.2 ⟨h, ih⟩

section
variable {s : String}

theorem IsStatement.statements_eq (h : IsStatement s) : statements s = [s] := by
  rw [statements_of_stretches (stretches_of_uncut h.uncut) (says_iff.1 h.code), textOf_tokens,
    ← trim, h.trim_eq]
  rfl

/-- A newline in front of a script is in none of its statements. -/
theorem statements_newline_append (r : String) : statements ("\n" ++ r) = statements r := by
  have htokens : tokens ("\n" ++ r).toList = .symbol '\n' :: tokens r.toList := by
    have htext : ("\n" ++ r).toList = ['\n'] ++ r.toList := by simp
    have hbreak : ∀ c ∈ ['\n'], isBreak c = true := List.forall_mem_singleton.2 (by decide)
    rw [htext, tokens_breaks_append hbreak]
    rfl
  have hstretches : ∃ ts rest, stretches .start (tokens r.toList) = ts :: rest ∧
      stretches .start (tokens ("\n" ++ r).toList) = (.symbol '\n' :: ts) :: rest := by
    have hcut : Progress.start.isCut (.symbol '\n') = false := by decide
    rw [htokens]
    rcases uncut_or_cut .start (tokens r.toList) with huncut | ⟨ts, t, rest, heq, huncut, ht⟩
    · exact ⟨_, [], stretches_of_uncut huncut, stretches_of_uncut (.cons hcut huncut)⟩
    · rw [heq, ← List.cons_append]
      exact ⟨ts, _, stretches_append_cut huncut ht, stretches_append_cut (.cons hcut huncut) ht⟩
  obtain ⟨ts, rest, hscript, hlater⟩ := hstretches
  have hany : (Token.symbol '\n' :: ts).any Token.isCode = ts.any Token.isCode := rfl
  have htrim : trimmed (textOf (.symbol '\n' :: ts)) = trimmed (textOf ts) := rfl
  rw [statements, statements, hscript, hlater, List.filter_cons, List.filter_cons, hany]
  split
  · rw [List.map_cons, htrim, List.map_cons]
  · rfl

theorem IsStatement.statements_append (h : IsStatement s) (hended : IsEnded s) (r : String) :
    statements (s ++ "\n;\n" ++ r) = s :: statements r := by
  have htext : s ++ "\n;\n" ++ r = (s ++ "\n") ++ ";" ++ ("\n" ++ r) := by
    simp [← String.toList_inj]
  have hline : (s ++ "\n").toList = s.toList ++ ['\n'] := by simp
  have hreads : ReadsAs (s ++ "\n").toList (tokens s.toList ++ [.symbol '\n']) := by
    refine ⟨?_, .append_break (by decide) hended.reads (.nil _ _)⟩
    rw [hline, textOf_append, textOf_tokens]
    rfl
  have htrim : trim (s ++ "\n") = s := by
    rw [trim, hline, trimmed_append_blank (by decide), ← trim, h.trim_eq]
  have hdepth :
      ((tokens s.toList ++ [Token.symbol '\n']).foldl Progress.after .start).depth = 0 := by
    rw [List.foldl_append, ← hended.closed, ← depth_eq_openBlocks]
    rfl
  -- the newlines go to the statements, and the semicolon stands alone
  have hwhole := statements_eq_cons_iff (r := "\n" ++ r) hreads h.uncut (says_iff.1 h.code)
  rw [htext, hwhole.2 ⟨uncut_of_not_mem (by decide) _, hdepth⟩, htrim, statements_newline_append]

/-- A sequence of statements, one under the other, is split into them. -/
theorem IsSequence.statements_joinWith {texts : List String} (h : IsSequence texts) :
    statements (joinWith "\n;\n" texts) = texts := by
  induction h with
  | nil => decide +kernel
  | last h => exact h.statements_eq
  | @cons s rest h hended _ ih =>
    cases rest with
    | nil => exact h.statements_eq
    | cons next rest =>
      have hjoin : joinWith "\n;\n" (s :: next :: rest) =
        s ++ "\n;\n" ++ joinWith "\n;\n" (next :: rest) := rfl
      rw [hjoin, h.statements_append hended, ih]

end

/-! ### Statements of a script -/

section
variable {script piece rest : List Char} {pieces : List (List Char)}

/-- What is left of a piece without a cut is a statement, if the piece says something. -/
theorem isStatement_trimmed (hascii : ∀ c ∈ piece, isBlank c = true → isAsciiBlank c = true)
    (hnone : ∀ before after, piece = before ++ ';' :: after → ¬ IsCut before after)
    (hcode : Says piece) : IsStatement (.ofList (trimmed piece)) := by
  obtain ⟨hprogress, huncut⟩ := progress_trimmed hascii
  have hall : tokens piece = tokens piece ++ [] := (List.append_nil _).symm
  refine ⟨?_, ?_, ?_⟩
  · rw [trim, String.toList_ofList, trimmed_trimmed]
  · rwa [String.toList_ofList, says_iff_code, hprogress, ← says_iff_code]
  · rw [String.toList_ofList]
    refine huncut (uncut_of_not_isCut hall ?_)
    intro before after htext
    rw [textOf_tokens] at htext
    rw [textOf_nil, List.append_nil]
    exact hnone before after htext

theorem IsCut.isEnded_trimmed (h : IsCut piece rest)
    (hascii : ∀ c ∈ piece, isBlank c = true → isAsciiBlank c = true) :
    IsEnded (.ofList (trimmed piece)) := by
  obtain ⟨ts, htext, hreads, hopen⟩ := h
  have htokens : tokens piece = ts := by
    rw [← htext]
    exact tokensFrom_textOf (hreads.change (atCut_semicolon rest) atCut_nil)
  refine ⟨?_, ?_⟩
  · rw [String.toList_ofList]
    exact IsCut.reads_trimmed ⟨ts, htext, hreads, hopen⟩
  · rw [String.toList_ofList, ← depth_eq_openBlocks, (progress_trimmed hascii).1, htokens,
      depth_eq_openBlocks, hopen]

/-- The statements of a script are a sequence, if its blanks are those of ASCII. -/
theorem Divided.isSequence (h : Divided script pieces)
    (hascii : ∀ c ∈ script, isBlank c = true → isAsciiBlank c = true) :
    IsSequence ((pieces.filter (Says ·)).map fun piece => .ofList (trimmed piece)) := by
  induction h with
  | @last piece hnone =>
    by_cases hcode : Says piece
    · have hfilter : [piece].filter (Says ·) = [piece] := by simp [hcode]
      rw [hfilter]
      exact .last (isStatement_trimmed hascii hnone hcode)
    · have hfilter : [piece].filter (Says ·) = [] := by simp [hcode]
      rw [hfilter]
      exact .nil
  | @cut piece rest pieces hcut hnone _ ih =>
    obtain ⟨hpiece, hrest⟩ := List.forall_mem_append.1 hascii
    have hrest := ih (List.forall_mem_cons.1 hrest).2
    by_cases hcode : Says piece
    · have hfilter : (piece :: pieces).filter (Says ·) = piece :: pieces.filter (Says ·) := by
        simp [hcode]
      rw [hfilter]
      refine .cons (isStatement_trimmed hpiece ?_ hcode) (hcut.isEnded_trimmed hpiece) hrest
      intro before after htext hbefore
      exact hnone before after htext (hbefore.change _)
    · have hfilter : (piece :: pieces).filter (Says ·) = pieces.filter (Says ·) := by simp [hcode]
      rwa [hfilter]

end

/-- **Reassembly.**  If the blanks of a script are those of ASCII, its statements with semicolons on
lines between them are split into the same statements, and each of them is split into itself. -/
theorem statements_joined {script : String}
    (hascii : ∀ c ∈ script.toList, isBlank c = true → isAsciiBlank c = true) :
    statements (joinWith "\n;\n" (statements script)) = statements script ∧
      ∀ s ∈ statements script, statements s = [s] := by
  obtain ⟨pieces, h⟩ := exists_divided script.toList
  have hsequence : IsSequence (statements script) := by
    rw [h.statements_eq]
    exact h.isSequence hascii
  exact ⟨hsequence.statements_joinWith, fun s hs => (hsequence.isStatement s hs).statements_eq⟩

/-- A script with comments at the ends of its pieces, a piece that is empty, and a quote that is
never closed. -/
def untidyScript : String :=
  "-- one;\nBEGIN;\tINSERT INTO a VALUES (';') -- two \n ;; SELECT 'three ; \n"

/-- The comment is closed again, and the quote stays open. -/
theorem statements_untidy :
    statements untidyScript =
        ["-- one;\nBEGIN", "INSERT INTO a VALUES (';') -- two", "SELECT 'three ;"] ∧
      (∀ c ∈ untidyScript.toList, isBlank c = true → isAsciiBlank c = true) ∧
      statements (joinWith "\n;\n" (statements untidyScript)) = statements untidyScript ∧
      ∀ s ∈ statements untidyScript, statements s = [s] := by
  have hall : (untidyScript.toList.all fun c => !isBlank c || isAsciiBlank c) = true := by
    decide +kernel
  have hascii : ∀ c ∈ untidyScript.toList, isBlank c = true → isAsciiBlank c = true := by
    simpa [imp_iff_not_or] using hall
  exact ⟨by decide +kernel, hascii, statements_joined hascii⟩

end RecordLayer.Sql
