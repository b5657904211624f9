import RecordLayer.Proofs.Store.Quoting
import RecordLayer.Proofs.Text.Mark
import RecordLayer.Store.Reader.Statement

/-!
# Names that tear a statement

A name that is put between double quotes as it stands ends at its first lone quote, and what is
behind it is read as more of the statement.  Nothing may follow the name of a table to be dropped
but a point, which makes it the name of a store, and a semicolon, which ends the statement.  So if
anything else comes next, blanks and comments aside, the statement cannot be read
(`dropCommands_of_isTorn`).
-/

namespace RecordLayer.Store
open Text Sql

variable {quote : Char} {s rest : List Char}

/-- A text whose quotes stand in pairs does not end quoted text. -/
theorem unquoted?_eq_none (h : Paired quote s) : unquoted? quote s = none := by
  induction h with
  | nil => rfl
  | @char c s hc _ ih =>
    cases s with
    | nil => exact if_neg hc
    | cons d s =>
      rw [unquoted?, if_neg hc, ih]
      rfl
  | pair _ ih =>
    rw [unquoted?, if_pos rfl, if_pos rfl, ih]
    rfl

/-! ### Where marks are read -/

section
variable (m : String)

theorem quotedLexeme_ne_mark (quote : Char) (s : List Char) :
    (quotedLexeme quote s).1 ≠ .mark m := by
  rw [quotedLexeme]
  cases unquoted? quote s with
  | none => exact Lexeme.noConfusion
  | some found =>
    dsimp only
    split
    · exact Lexeme.noConfusion
    · exact Lexeme.noConfusion

theorem hexadecimal_ne_mark (digits : List Char) : hexadecimal digits ≠ .mark m := by
  rw [hexadecimal]
  split
  · split
    · exact Lexeme.noConfusion
    · exact Lexeme.noConfusion
  · exact Lexeme.noConfusion

theorem numberLexeme_ne_mark (s : List Char) : (numberLexeme s).1 ≠ .mark m := by
  rw [numberLexeme]
  cases numberLexeme.hexDigits s with
  | some found => exact hexadecimal_ne_mark m found.1
  | none =>
    dsimp only
    split
    -- with a point or without one
    all_goals
      dsimp only
      split
      · exact Lexeme.noConfusion
      · split
        · exact Lexeme.noConfusion
        · exact Lexeme.noConfusion

theorem placeholderLexeme_ne_mark (numbered : Bool) (bound : Nat) (s : List Char) :
    (placeholderLexeme numbered bound s).1 ≠ .mark m := by
  simp only [placeholderLexeme]
  split
  · dsimp only
    split
    · exact Lexeme.noConfusion
    · exact Lexeme.noConfusion
  · exact Lexeme.noConfusion

end

theorem head?_of_longMark {mark : List Char} (hmark : mark ∈ longMarks) {c : Char}
    (hbegins : beginsWith mark (c :: s) = true) : mark.head? = some c := by
  have hne : ∀ mark ∈ longMarks, mark ≠ [] := by decide
  obtain ⟨rest, hrest⟩ := Option.isSome_iff_exists.1 hbegins
  have hsplit := afterMark?_eq_some_iff.1 hrest
  cases mark with
  | nil => exact absurd rfl (hne _ hmark)
  | cons d mark =>
    obtain ⟨rfl, -⟩ := List.cons_eq_cons.1 hsplit
    rfl

/-- A mark begins with the character that it is read at. -/
theorem head?_of_lexemeAt {bound : Nat} {c : Char} {m : String}
    (h : (lexemeAt bound c s).1 = .mark m) : m.toList.head? = some c := by
  rw [lexemeAt] at h
  split at h
  · exact absurd h (quotedLexeme_ne_mark m _ _)
  split at h
  · split at h
    · cases h
    · cases h
  split at h
  · split at h
    · rename_i digits rest hcut
      cases hbytes : bytes? digits with
      | none => simp [hbytes] at h
      | some b => simp [hbytes] at h
    · cases h
  split at h
  · cases h
  split at h
  · dsimp only at h
    split at h
    · cases h
    · exact absurd h (numberLexeme_ne_mark m _)
  split at h
  · exact absurd h (placeholderLexeme_ne_mark m _ _ _)
  split at h
  · exact absurd h (placeholderLexeme_ne_mark m _ _ _)
  split at h
  · rename_i mark hfound
    cases h
    have hbegins := List.find?_some hfound
    rw [String.toList_ofList]
    exact head?_of_longMark (List.mem_of_find?_eq_some hfound) hbegins
  · split at h
    · cases h
      rw [String.toList_singleton]
      rfl
    · cases h

/-! ### Statements that go on behind the name -/

/-- A lexeme before the statements that follow it, between which a semicolon stands. -/
def putBefore (l : Lexed) (rest : List (List Lexed)) : List (List Lexed) :=
  match l.lexeme, rest with
  | .mark ";", rest => [] :: rest
  | _, [] => [[l]]
  | _, command :: rest => (l :: command) :: rest

theorem putBefore_of_ne {l : Lexed} (h : l.lexeme ≠ .mark ";") (more : List Lexed)
    (others : List (List Lexed)) : putBefore l (more :: others) = (l :: more) :: others := by
  unfold putBefore
  split
  · rename_i heq
    exact absurd heq h
  · contradiction
  · rename_i heq _
    cases heq
    rfl

theorem foldr_putBefore {first : List Lexed} (hfirst : ∀ l ∈ first, l.lexeme ≠ .mark ";")
    (more : List Lexed) (others : List (List Lexed)) :
    first.foldr putBefore (more :: others) = (first ++ more) :: others := by
  induction first with
  | nil => rfl
  | cons l first ih =>
    obtain ⟨hl, hfirst⟩ := List.forall_mem_cons.1 hfirst
    rw [List.foldr_cons, ih hfirst, putBefore_of_ne hl, List.cons_append]

theorem foldr_putBefore_ne_nil (ls : List Lexed) : ls.foldr putBefore [[]] ≠ [] := by
  cases ls with
  | nil => exact List.cons_ne_nil _ _
  | cons l ls =>
    rw [List.foldr_cons]
    unfold putBefore
    split
    · exact List.cons_ne_nil _ _
    · exact List.cons_ne_nil _ _
    · exact List.cons_ne_nil _ _

/-- The first statement of a text begins with what stands before the first semicolon. -/
theorem commands_append {first : List Lexed} (hne : first ≠ [])
    (hfirst : ∀ l ∈ first, l.lexeme ≠ .mark ";") (ls : List Lexed) :
    ∃ more others, commands (first ++ ls) = (first ++ more) :: others := by
  have hcommands : commands (first ++ ls) =
      ((first ++ ls).foldr putBefore [[]]).filter (!·.isEmpty) := rfl
  obtain ⟨more, others, hls⟩ := List.exists_cons_of_ne_nil (foldr_putBefore_ne_nil ls)
  refine ⟨more, others.filter (!·.isEmpty), ?_⟩
  rw [hcommands, List.foldr_append, hls, foldr_putBefore hfirst, List.filter_cons_of_pos]
  simp [hne]

namespace Reader

theorem skipMark_of_ne {l : Lexed} {m : String} (h : l.lexeme ≠ .mark m) (ls : List Lexed) :
    skipMark m (l :: ls) = some (false, l :: ls) := by
  have hnot : (some l.lexeme == some (Lexeme.mark m)) = false :=
    beq_false_of_ne fun heq => h (Option.some.inj heq)
  have hskip : skipMark m (l :: ls) = (if (some l.lexeme == some (Lexeme.mark m)) = true then
      (do pass 1; return true : Reader Bool) else return false) (l :: ls) := rfl
  rw [hskip, hnot]
  rfl

theorem tableName_of_ne {l : Lexed} (h : l.lexeme ≠ .mark ".") (double : Bool) (name : String)
    (text : List Char) (ls : List Lexed) :
    tableName (⟨.quotedName double name, text⟩ :: l :: ls) = some (name, l :: ls) := by
  have hname : tableName (⟨.quotedName double name, text⟩ :: l :: ls) =
      (skipMark "." (l :: ls)).bind fun p =>
        (if p.1 then (do
          let table ← Reader.name
          return if sameName name "main" then table else name ++ "." ++ table : Reader String)
        else return name) p.2 := rfl
  rw [hname, skipMark_of_ne h]
  rfl

end Reader

theorem command_drop (a b c d : List Char) (ls : List Lexed) :
    Reader.command (⟨.name "DROP", a⟩ :: ⟨.name "TABLE", b⟩ :: ⟨.name "IF", c⟩ ::
      ⟨.name "EXISTS", d⟩ :: ls) =
        (Reader.tableName ls).bind fun p => some (.dropTable true p.1, p.2) :=
  rfl

/-- What stands behind a command spoils it. -/
theorem Command.ofLexemes?_of_left {ls more : List Lexed} {l : Lexed} {command : Command}
    (h : Reader.command ls = some (command, l :: more)) : Command.ofLexemes? ls = none := by
  have hread : Command.ofLexemes? ls = ((Reader.command ls).bind fun p =>
      (do Reader.finished; return p.1 : Reader Command) p.2).map Prod.fst := rfl
  rw [hread, h]
  rfl

/-! ### Torn statements -/

/-- The commands that the statement for a name spells. -/
def dropCommands (name : String) : List (Option Command) :=
  (commands (lexed (dropNamed name))).map Command.ofLexemes?

/-- The name ends at a lone quote, behind which neither a point nor a semicolon comes next, blanks
and comments aside. -/
def IsTorn (name : String) : Prop :=
  ∃ front back c rest, name.toList = front ++ '"' :: back ∧ Paired '"' front ∧
    back.head? ≠ some '"' ∧ pastGaps (back.length + 1) (back ++ ['"']) = c :: rest ∧
    c ≠ '.' ∧ c ≠ ';'

theorem lexedFrom_cons {bound : Nat} {c : Char} {l : Lexeme} (n : Nat)
    (h : lexemeAt bound c s = (l, rest)) : ∃ text bound', lexedFrom (n + 1) bound (c :: s) =
      ⟨l, text⟩ :: lexedFrom n bound' (pastGaps rest.length rest) := by
  rw [lexedFrom, h]
  exact ⟨_, _, rfl⟩

/-- A statement cannot be read in which the name is followed by anything else. -/
theorem dropCommands_of_lexed {name inside : String} {double : Bool} {a b c d e : List Char}
    {l : Lexed} {more : List Lexed} (hlexed : lexed (dropNamed name) =
      [⟨.name "DROP", a⟩, ⟨.name "TABLE", b⟩, ⟨.name "IF", c⟩, ⟨.name "EXISTS", d⟩,
        ⟨.quotedName double inside, e⟩, l] ++ more)
    (hpoint : l.lexeme ≠ .mark ".") (hsemicolon : l.lexeme ≠ .mark ";") :
    ∃ others, dropCommands name = none :: others := by
  have hfirst : ∀ l' ∈ [⟨.name "DROP", a⟩, ⟨.name "TABLE", b⟩, ⟨.name "IF", c⟩,
      ⟨.name "EXISTS", d⟩, ⟨.quotedName double inside, e⟩, l], l'.lexeme ≠ .mark ";" := by
    simp [hsemicolon]
  obtain ⟨more', others, hcommands⟩ := commands_append (List.cons_ne_nil _ _) hfirst more
  have hread := command_drop a b c d (⟨.quotedName double inside, e⟩ :: l :: more')
  rw [Reader.tableName_of_ne hpoint] at hread
  rw [dropCommands, hlexed, hcommands, List.map_cons]
  exact ⟨_, congrArg (· :: _) (Command.ofLexemes?_of_left hread)⟩

/-- The first command of the statement for a torn name cannot be read. -/
theorem dropCommands_of_isTorn {name : String} (h : IsTorn name) :
    ∃ others, dropCommands name = none :: others := by
  obtain ⟨front, back, c, rest, hname, hfront, hback, hnext, hpoint, hsemicolon⟩ := h
  obtain ⟨w₁, w₂, w₃, w₄, n, hlexed⟩ := lexed_dropNamed_words name
  rw [hname, List.append_assoc, List.cons_append] at hlexed
  cases back with
  | nil =>
    -- the quote and the one that is put behind the name make a pair, and none is left to end it
    have hopen : lexemeAt 0 '"' (front ++ '"' :: ([] ++ ['"'])) = (.unreadable, []) := by
      rw [lexemeAt_doubleQuote, quotedLexeme, List.nil_append,
        unquoted?_eq_none (hfront.append (.pair .nil))]
    obtain ⟨text, bound, hlast⟩ := lexedFrom_cons (n + 1) hopen
    rw [hlast] at hlexed
    rw [dropCommands, hlexed]
    exact ⟨[], rfl⟩
  | cons d back =>
    have hback : (d :: back ++ ['"']).head? ≠ some '"' := hback
    have hclosed : lexemeAt 0 '"' (front ++ '"' :: (d :: back ++ ['"'])) =
        (.quotedName true (.ofList (undoubled '"' front)), d :: back ++ ['"']) := by
      rw [lexemeAt_doubleQuote, quotedLexeme, unquoted?_append_quote hfront hback]
      rfl
    have hlength : (d :: back ++ ['"']).length = (d :: back).length + 1 := List.length_append
    obtain ⟨text, bound, hfifth⟩ := lexedFrom_cons (n + 1) hclosed
    rcases hbehind : lexemeAt bound c rest with ⟨l, behind⟩
    obtain ⟨text', bound', hsixth⟩ := lexedFrom_cons n hbehind
    rw [hfifth, hlength, hnext, hsixth] at hlexed
    have hmark : ∀ d, d ≠ c → l ≠ .mark (.singleton d) := by
      rintro d hd rfl
      have hhead := head?_of_lexemeAt (congrArg Prod.fst hbehind)
      rw [String.toList_singleton] at hhead
      exact hd (Option.some.inj hhead)
    exact dropCommands_of_lexed hlexed (hmark '.' hpoint.symm) (hmark ';' hsemicolon.symm)

end RecordLayer.Store
