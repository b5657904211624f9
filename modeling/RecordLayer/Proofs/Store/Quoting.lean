import RecordLayer.Proofs.Sql.Span
import RecordLayer.Store.Connection

/-!
# Names between quotes

A name that is put between double quotes as it stands is read back with each doubled quote single.
If its quotes stand in pairs it is one name all the same, but another one and a shorter one unless
there are none (`length_undoubled_lt`).  So a statement made in this way drops the table whose name
has the quotes single (`commands_dropNamed`).
-/

namespace RecordLayer.Store
open Text Sql

variable {quote : Char} {s rest : List Char}

/-- The text with doubled quotes single. -/
def undoubled (quote : Char) : List Char → List Char
  | c :: d :: s =>
    if c = quote ∧ d = quote then quote :: undoubled quote s else c :: undoubled quote (d :: s)
  | s => s

theorem undoubled_cons {c : Char} (hc : c ≠ quote) (s : List Char) :
    undoubled quote (c :: s) = c :: undoubled quote s := by
  cases s with
  | nil => rfl
  | cons d s => rw [undoubled, if_neg fun h => hc h.1]

theorem undoubled_pair (s : List Char) :
    undoubled quote (quote :: quote :: s) = quote :: undoubled quote s := by
  rw [undoubled, if_pos ⟨rfl, rfl⟩]

theorem undoubled_of_not_mem (h : quote ∉ s) : undoubled quote s = s := by
  induction s with
  | nil => rfl
  | cons c s ih =>
    rw [undoubled_cons (List.ne_of_not_mem_cons h).symm, ih (List.not_mem_of_not_mem_cons h)]

theorem length_undoubled_le (h : Paired quote s) : (undoubled quote s).length ≤ s.length := by
  induction h with
  | nil => exact Nat.le_refl _
  | char hc _ ih =>
    rw [undoubled_cons hc]
    exact Nat.succ_le_succ ih
  | pair _ ih =>
    rw [undoubled_pair]
    exact (Nat.succ_le_succ ih).trans (Nat.le_succ _)

theorem length_undoubled_lt (h : Paired quote s) (hmem : quote ∈ s) :
    (undoubled quote s).length < s.length := by
  induction h with
  | nil => cases hmem
  | char hc _ ih =>
    rw [undoubled_cons hc]
    exact Nat.succ_lt_succ (ih (List.mem_of_ne_of_mem (Ne.symm hc) hmem))
  | pair h _ =>
    rw [undoubled_pair]
    exact Nat.lt_succ_of_le (Nat.succ_le_succ (length_undoubled_le h))

theorem mem_undoubled_iff (h : Paired quote s) : quote ∈ undoubled quote s ↔ quote ∈ s := by
  induction h with
  | nil => rfl
  | char hc _ ih => rw [undoubled_cons hc, List.mem_cons, List.mem_cons, ih]
  | pair _ _ =>
    rw [undoubled_pair]
    exact iff_of_true List.mem_cons_self List.mem_cons_self

/-- A text before its first quote is as it was. -/
theorem prefix_of_prefix_undoubled {front : List Char} (hfront : quote ∉ front)
    (h : Paired quote s) (hbegins : front <+: undoubled quote s) : front <+: s := by
  induction h generalizing front with
  | nil => exact hbegins
  | @char c s hc _ ih =>
    rw [undoubled_cons hc] at hbegins
    cases front with
    | nil => exact List.nil_prefix
    | cons d front =>
      obtain ⟨hd, htail⟩ := List.cons_prefix_cons.1 hbegins
      exact List.cons_prefix_cons.2 ⟨hd, ih (List.not_mem_of_not_mem_cons hfront) htail⟩
  | pair _ _ =>
    rw [undoubled_pair] at hbegins
    cases front with
    | nil => exact List.nil_prefix
    | cons d front =>
      exact absurd (List.cons_prefix_cons.1 hbegins).1.symm (List.ne_of_not_mem_cons hfront)

theorem unquoted?_append_quote (h : Paired quote s) (hrest : rest.head? ≠ some quote) :
    unquoted? quote (s ++ quote :: rest) = some (undoubled quote s, rest) := by
  induction h with
  | nil =>
    cases rest with
    | nil => exact if_pos rfl
    | cons d rest =>
      have hd : d ≠ quote := fun heq => hrest (congrArg some heq)
      rw [List.nil_append, unquoted?, if_pos rfl, if_neg hd]
      rfl
  | @char c s hc h ih =>
    rw [undoubled_cons hc]
    cases s with
    | nil =>
      rw [List.nil_append] at ih
      rw [List.cons_append, List.nil_append, unquoted?, if_neg hc, ih]
      rfl
    | cons d s =>
      rw [List.cons_append] at ih
      rw [List.cons_append, List.cons_append, unquoted?, if_neg hc, ih]
      rfl
  | pair h ih =>
    rw [List.cons_append, List.cons_append, unquoted?, if_pos rfl, if_pos rfl, ih, undoubled_pair]
    rfl

/-! ### Statements that drop a table -/

/-- The name that is read where a name is put between double quotes as it stands. -/
def singled (name : String) : String :=
  .ofList (undoubled '"' name.toList)

theorem toList_singled (name : String) : (singled name).toList = undoubled '"' name.toList :=
  String.toList_ofList

theorem singled_of_not_mem {name : String} (h : '"' ∉ name.toList) : singled name = name := by
  rw [singled, undoubled_of_not_mem h, String.ofList_toList]

/-- The statement that drops a table whose name is put between double quotes as it stands. -/
def dropNamed (name : String) : String :=
  "DROP TABLE IF EXISTS " ++ "\"" ++ name ++ "\""

theorem toList_dropNamed (name : String) : (dropNamed name).toList =
    "DROP TABLE IF EXISTS ".toList ++ '"' :: (name.toList ++ ['"']) := by
  have hquote : "\"".toList = ['"'] := rfl
  unfold dropNamed
  simp only [String.toList_append, hquote, List.append_assoc, List.cons_append, List.nil_append]

theorem lexemeAt_doubleQuote (bound : Nat) (s : List Char) :
    lexemeAt bound '"' s = quotedLexeme '"' s :=
  if_pos (.inr (.inl rfl))

theorem lexeme_dropNamed {name : String} (h : Paired '"' name.toList) :
    lexemeAt 0 '"' (name.toList ++ ['"']) = (.quotedName true (singled name), []) := by
  rw [lexemeAt_doubleQuote, quotedLexeme, unquoted?_append_quote h (by decide)]
  rfl

/-- The four words are read whatever the name is. -/
theorem lexed_dropNamed_words (name : String) : ∃ a b c d n, lexed (dropNamed name) =
    ⟨.name "DROP", a⟩ :: ⟨.name "TABLE", b⟩ :: ⟨.name "IF", c⟩ :: ⟨.name "EXISTS", d⟩ ::
      lexedFrom (n + 2) 0 ('"' :: (name.toList ++ ['"'])) := by
  have hwords : ∀ T : List Char, ∃ a b c d,
      let s := "DROP TABLE IF EXISTS ".toList ++ '"' :: T
      lexedFrom (pastGaps s.length s).length 0 (pastGaps s.length s) =
        ⟨.name "DROP", a⟩ :: ⟨.name "TABLE", b⟩ :: ⟨.name "IF", c⟩ :: ⟨.name "EXISTS", d⟩ ::
          lexedFrom (T.length + 16 + 2) 0 ('"' :: T) :=
    fun T => ⟨_, _, _, _, rfl⟩
  rw [lexed, ← String.length_toList, toList_dropNamed]
  obtain ⟨a, b, c, d, hlexed⟩ := hwords (name.toList ++ ['"'])
  exact ⟨a, b, c, d, _, hlexed⟩

theorem lexed_dropNamed {name : String} (h : Paired '"' name.toList) :
    ∃ a b c d e, lexed (dropNamed name) = [⟨.name "DROP", a⟩, ⟨.name "TABLE", b⟩, ⟨.name "IF", c⟩,
      ⟨.name "EXISTS", d⟩, ⟨.quotedName true (singled name), e⟩] := by
  obtain ⟨a, b, c, d, n, hlexed⟩ := lexed_dropNamed_words name
  have hname : ∃ e, lexedFrom (n + 2) 0 ('"' :: (name.toList ++ ['"'])) =
      [⟨.quotedName true (singled name), e⟩] := by
    simp only [lexedFrom, lexeme_dropNamed h]
    exact ⟨_, rfl⟩
  obtain ⟨e, hlast⟩ := hname
  rw [hlast] at hlexed
  exact ⟨a, b, c, d, e, hlexed⟩

/-- It is one statement, which drops the table whose name has the quotes single. -/
theorem commands_dropNamed {name : String} (h : Paired '"' name.toList) :
    (commands (lexed (dropNamed name))).map Command.ofLexemes? =
      [some (.dropTable true (singled name))] := by
  obtain ⟨a, b, c, d, e, hlexed⟩ := lexed_dropNamed h
  rw [hlexed]
  rfl

end RecordLayer.Store
