import Mathlib.Data.List.Forall2
import Mathlib.Data.List.TakeWhile
import RecordLayer.Proofs.Text.Identifier
import RecordLayer.Sql.Parameter
import RecordLayer.Sql.Statement

/-!
# Statements with their parameters filled

A record is written by a statement that the library itself words, with a named parameter for
each column, and that is then scanned again to put placeholders in the parameters' stead.  This
module follows such a text through the scanner.

`Expands params dialect n s out values` says that the text `s`, standing behind `n` bound values,
fills to `out` and binds `values`, whatever character stands before it.  Plain text is kept
(`Expands.plain`), a parameter gives way to its placeholder (`Expands.param`), and a list of
columns, each with its parameter, follows by induction (`Expands.columns`).  From these the two
statements that write records: `expand_insertStatement` and `expand_updateStatement`, whose results
are the texts `insertText` and `updateText`.
-/

namespace RecordLayer.Sql
open Text

/-! ### Plain text and the scanner -/

/-- A character that opens no span and begins no parameter. -/
def isPlain (c : Char) : Bool :=
  c != '\'' && c != '"' && c != '\x60' && c != '-' && c != '/' && c != '$' && c != ':'

theorem isPlain_of_isWordChar {c : Char} (h : isWordChar c = true) : isPlain c = true := by
  simp only [isPlain, Bool.and_eq_true, bne_iff_ne, ne_eq]
  refine ⟨⟨⟨⟨⟨⟨?_, ?_⟩, ?_⟩, ?_⟩, ?_⟩, ?_⟩, ?_⟩ <;> rintro rfl <;> exact absurd h (by decide)

theorem isPlain_of_isIdentifier {s : List Char} (h : isIdentifier s = true) :
    s.all isPlain = true :=
  List.all_eq_true.2 fun c hc => isPlain_of_isWordChar (isWordChar_of_isIdentifier h c hc)

theorem enclosed?_of_isPlain {c : Char} (h : isPlain c = true) (afterWord : Bool)
    (s : List Char) : enclosed? afterWord c s = none := by
  simp only [isPlain, Bool.and_eq_true, bne_iff_ne, ne_eq] at h
  obtain ⟨⟨⟨⟨⟨⟨h₁, h₂⟩, h₃⟩, h₄⟩, h₅⟩, h₆⟩, -⟩ := h
  simp [enclosed?, h₁, h₂, h₃, h₄, h₅, h₆]

theorem firstToken_colon (afterWord : Bool) (s : List Char) :
    firstToken afterWord ':' s = (.symbol ':', s) := by
  simp [firstToken, enclosed?, isWordStart]

theorem piecesOf_cons {t : Token} (h : t ≠ .symbol ':') (ts : List Token) :
    piecesOf (t :: ts) = .text t.text :: piecesOf ts := by
  cases t with
  | symbol c => rw [piecesOf] <;> simp_all
  | _ => simp [piecesOf]

/-- A word that is as long as can be is a token of its own. -/
theorem tokensFrom_word {word s : List Char} (hword : isIdentifier word = true)
    (hs : EndsWord s) : tokensFrom false (word ++ s) = .word word :: tokensFrom true s := by
  have hall := isWordChar_of_isIdentifier hword
  cases word with
  | nil => cases hword
  | cons c t =>
    have hc : isWordStart c = true := (Bool.and_eq_true_iff.1 hword).1
    have ht : ∀ d ∈ t, isWordChar d = true := fun d hd => hall d (List.mem_cons_of_mem _ hd)
    have hlast := getLast?_any_isWordChar (List.cons_ne_nil c t) hall
    have hfirst : firstToken false c (t ++ s) = (.word (c :: t), s) := by
      rw [firstToken, enclosed?_of_isPlain (isPlain_of_isWordChar (hall c List.mem_cons_self)),
        hs.takeWhile_append, hs.dropWhile_append, List.takeWhile_eq_self_iff.2 ht,
        List.dropWhile_eq_nil_iff.2 ht]
      exact if_pos ⟨hc, rfl⟩
    rw [List.cons_append, tokensFrom]
    simp only [hfirst, Token.text, hlast]

/-- A colon and the word behind it are tokens of their own. -/
theorem tokensFrom_param {name s : List Char} (hname : isIdentifier name = true)
    (hs : EndsWord s) (afterWord : Bool) : tokensFrom afterWord (':' :: name ++ s) =
      .symbol ':' :: .word name :: tokensFrom true s := by
  have hcolon : isWordChar ':' = false := by decide
  rw [List.cons_append, tokensFrom, firstToken_colon]
  simp only [Token.text, List.getLast?_singleton, Option.any_some, hcolon,
    tokensFrom_word hname hs]

/-! ### Texts that fill -/

/-- The text fills to `out` and binds `values`, `n` values being bound already, whatever stands
before it. -/
def Expands (params : Params) (dialect : Dialect) (n : Nat) (s out : List Char)
    (values : List Value) : Prop :=
  ∀ afterWord, fill params dialect n (piecesOf (tokensFrom afterWord s)) = .ok (out, values)

theorem expand_of_expands {params : Params} {dialect : Dialect} {sql : String}
    {out : List Char} {values : List Value}
    (h : Expands params dialect 0 sql.toList out values) :
    expand sql params dialect = .ok (.ofList out, values) := by
  rw [expand, pieces, tokens, h false]
  rfl

namespace Expands
variable {params : Params} {dialect : Dialect} {n : Nat} {s out : List Char}
  {values : List Value}

theorem nil : Expands params dialect n [] [] [] := fun afterWord => by
  rw [tokensFrom]
  rfl

/-- One token that is no colon is kept. -/
theorem cons_token {afterWord : Bool} {c : Char} {s rest : List Char} {t : Token}
    (ht : firstToken afterWord c s = (t, rest)) (hne : t ≠ .symbol ':')
    (h : fill params dialect n (piecesOf (tokensFrom (t.text.getLast?.any isWordChar) rest)) =
      .ok (out, values)) :
    fill params dialect n (piecesOf (tokensFrom afterWord (c :: s))) =
      .ok (t.text ++ out, values) := by
  rw [tokensFrom, ht, piecesOf_cons hne, fill, h]
  rfl

/-- Plain text is kept, if what follows it ends a word. -/
theorem plain (h : Expands params dialect n s out values) (hs : EndsWord s) (t : List Char)
    (ht : t.all isPlain = true) : Expands params dialect n (t ++ s) (t ++ out) values := by
  -- By the length of `t`, since a word takes a run of it at once.
  induction hlen : t.length using Nat.strong_induction_on generalizing t with
  | _ k ih =>
    subst hlen
    intro afterWord
    cases t with
    | nil => exact h afterWord
    | cons c t =>
      obtain ⟨hc, ht⟩ : isPlain c = true ∧ t.all isPlain = true := by simpa using ht
      by_cases hw : isWordStart c = true ∧ (!afterWord) = true
      · have hfirst : firstToken afterWord c (t ++ s) =
            (.word (c :: t.takeWhile isWordChar), t.dropWhile isWordChar ++ s) := by
          rw [firstToken, enclosed?_of_isPlain hc, hs.takeWhile_append, hs.dropWhile_append]
          exact if_pos hw
        have hrest := ih (t.dropWhile isWordChar).length
          (Nat.lt_succ_of_le (List.length_dropWhile_le _ _)) (t.dropWhile isWordChar)
          (List.all_eq_true.2 fun d hd =>
            List.all_eq_true.1 ht d ((List.dropWhile_sublist _).subset hd)) rfl
        have := cons_token hfirst (by simp) (hrest _)
        simpa [Token.text, ← List.append_assoc, List.takeWhile_append_dropWhile] using this
      · have hfirst : firstToken afterWord c (t ++ s) = (.symbol c, t ++ s) := by
          rw [firstToken, enclosed?_of_isPlain hc]
          exact if_neg hw
        have hne : Token.symbol c ≠ .symbol ':' := by
          rintro ⟨⟩
          exact absurd hc (by decide)
        have hrest := ih t.length (Nat.lt_succ_self _) t ht rfl
        exact cons_token hfirst hne (hrest _)

/-- A plain character that stands in no word is kept, whatever follows it. -/
theorem mark {c : Char} (h : Expands params dialect n s out values) (hc : isPlain c = true)
    (hw : isWordChar c = false) : Expands params dialect n (c :: s) (c :: out) values := by
  intro afterWord
  have hstart : isWordStart c = false := by
    by_contra hs
    rw [isWordChar_of_isWordStart (by simpa using hs)] at hw
    cases hw
  have hfirst : firstToken afterWord c s = (.symbol c, s) := by
    rw [firstToken, enclosed?_of_isPlain hc]
    simp [hstart]
  have hne : Token.symbol c ≠ .symbol ':' := by
    rintro ⟨⟩
    exact absurd hc (by decide)
  exact cons_token hfirst hne (h _)

/-- A parameter gives way to its placeholder. -/
theorem param {name : String} {v : Value} (hname : isIdentifier name.toList = true)
    (hv : params.get? name = some v) (h : Expands params dialect (n + 1) s out values)
    (hs : EndsWord s) : Expands params dialect n (':' :: name.toList ++ s)
      ((slot dialect (n + 1) v).toList ++ out) (v :: values) := by
  intro afterWord
  rw [tokensFrom_param hname hs, piecesOf, fill, String.ofList_toList, hv]
  simp only
  rw [h _]
  rfl

end Expands

/-! ### Lists of columns -/

/-- The placeholders of values, behind `n` that are bound already. -/
def slots (dialect : Dialect) (n : Nat) : List Value → List String
  | []      => []
  | v :: vs => slot dialect (n + 1) v :: slots dialect (n + 1) vs

@[simp] theorem length_slots (dialect : Dialect) (n : Nat) (values : List Value) :
    (slots dialect n values).length = values.length := by
  induction values generalizing n with
  | nil => rfl
  | cons v vs ih => simp [slots, ih]

theorem toList_comma : ", ".toList = [',', ' '] := rfl

theorem toList_colon : ":".toList = [':'] := rfl

theorem toList_paren : ")".toList = [')'] := rfl

theorem toList_set : " SET ".toList = " SET".toList ++ [' '] := rfl

theorem toList_assign : " = :".toList = " = ".toList ++ [':'] := rfl

theorem toList_joinWith (mark : String) (pieces : List String) :
    (joinWith mark pieces).toList = joined mark.toList (pieces.map String.toList) := by
  fun_induction joinWith mark pieces with
  | case1 => rfl
  | case2 => rfl
  | case3 piece rest hne ih =>
    cases rest with
    | nil => exact absurd rfl hne
    | cons q rest => simp [joined, ih]

/-- Columns in a list, each with a text before its parameter. -/
theorem Expands.columns {params : Params} {dialect : Dialect} (before : String → List Char)
    {columns : List String} {values : List Value}
    (hbound : List.Forall₂ (fun c v => params.get? c = some v) columns values)
    (hname : ∀ c ∈ columns, isIdentifier c.toList = true)
    (hbefore : ∀ c ∈ columns, (before c).all isPlain = true)
    {n : Nat} {s out : List Char} {more : List Value}
    (h : Expands params dialect (n + columns.length) s out more) (hs : EndsWord s) :
    Expands params dialect n
      (joined [',', ' '] (columns.map fun c => before c ++ ':' :: c.toList) ++ s)
      (joined [',', ' '] (List.zipWith (fun c p => before c ++ p.toList) columns
        (slots dialect n values)) ++ out)
      (values ++ more) := by
  induction hbound generalizing n with
  | nil => exact h
  | @cons c v columns values hv hbound ih =>
    have hc := hname c List.mem_cons_self
    have hb := hbefore c List.mem_cons_self
    have one : ∀ {s out : List Char} {more : List Value}, EndsWord s →
        Expands params dialect (n + 1) s out more →
        Expands params dialect n (before c ++ (':' :: c.toList ++ s))
          (before c ++ ((slot dialect (n + 1) v).toList ++ out)) (v :: more) :=
      fun hs h => (h.param hc hv hs).plain rfl _ hb
    cases hbound with
    | nil => simpa [joined, slots] using one hs h
    | @cons c₂ v₂ columns values hv₂ hbound =>
      have hrest := ih (fun c hc => hname c (List.mem_cons_of_mem _ hc))
        (fun c hc => hbefore c (List.mem_cons_of_mem _ hc)) (n := n + 1)
        (by simpa [Nat.add_assoc, Nat.add_comm, Nat.add_left_comm] using h)
      have := one (endsWord_cons (by decide) _)
        ((hrest.mark (c := ' ') (by decide) (by decide)).mark (c := ',') (by decide) (by decide))
      simpa [joined, slots] using this

/-! ### The statements that write records -/

/-- `INSERT INTO t (a, b) VALUES ($1, $2)`, and ` RETURNING key` if a key is given. -/
def insertText (dialect : Dialect) (table : String) (columns : List String)
    (values : List Value) (returning : Option String) : String :=
  "INSERT INTO " ++ table ++ " (" ++ joinWith ", " columns ++ ") VALUES (" ++
    joinWith ", " (slots dialect 0 values) ++ ")" ++
    returning.elim "" (" RETURNING " ++ ·)

/-- `UPDATE t SET a = $1, b = $2 WHERE key = $3`. -/
def updateText (dialect : Dialect) (table : String) (columns : List String)
    (values : List Value) (key : String) (id : Value) : String :=
  "UPDATE " ++ table ++ " SET " ++
    joinWith ", " (List.zipWith (fun c p => c ++ " = " ++ p) columns (slots dialect 0 values)) ++
    " WHERE " ++ key ++ " = " ++ slot dialect (values.length + 1) id

theorem trim_of_isIdentifier {s : String} (h : isIdentifier s.toList = true) : trim s = s := by
  have hblank : ∀ c ∈ s.toList, isBlank c = false := fun c hc =>
    isBlank_of_isWordChar (isWordChar_of_isIdentifier h c hc)
  rw [trim, trimmed_eq_self, String.ofList_toList]
  · exact fun c hc => hblank c (List.mem_of_head? hc)
  · exact fun c hc => hblank c (List.mem_of_getLast? hc)

theorem returningClause_of_isIdentifier {returning : Option String}
    (h : ∀ key ∈ returning, isIdentifier key.toList = true) :
    returningClause returning = returning.elim "" (" RETURNING " ++ ·) := by
  cases returning with
  | none => rfl
  | some key =>
    have hkey := h key rfl
    have hne : key.isEmpty = false := by
      rw [String.isEmpty_eq_false_iff]
      rintro rfl
      simp [isIdentifier] at hkey
    simp [returningClause, trim_of_isIdentifier hkey, hne]

theorem all_isPlain_joined {mark : List Char} {pieces : List (List Char)}
    (hmark : mark.all isPlain = true) (hpieces : ∀ p ∈ pieces, p.all isPlain = true) :
    (joined mark pieces).all isPlain = true := by
  refine List.all_eq_true.2 fun c hc => ?_
  rcases mem_joined hc with hc | ⟨p, hp, hc⟩
  · exact List.all_eq_true.1 hmark c hc
  · exact List.all_eq_true.1 (hpieces p hp) c hc

theorem zipWith_placeholders {columns placeholders : List String}
    (h : placeholders.length = columns.length) :
    List.zipWith (fun _ p => [] ++ p.toList) columns placeholders =
      placeholders.map String.toList := by
  induction columns generalizing placeholders with
  | nil => simp_all
  | cons c columns ih =>
    cases placeholders with
    | nil => rfl
    | cons p placeholders => rw [List.zipWith_cons_cons, ih (Nat.succ.inj h)]; rfl

/-- Plain text fills to itself and binds nothing. -/
theorem expands_self (params : Params) (dialect : Dialect) (n : Nat) {t : List Char}
    (ht : t.all isPlain = true) : Expands params dialect n t t [] := by
  have h : Expands params dialect n (t ++ []) (t ++ []) [] := Expands.nil.plain endsWord_nil t ht
  rwa [List.append_nil] at h

/-- A statement without parameters is sent as it stands. -/
theorem expand_of_isPlain (params : Params) (dialect : Dialect) {sql : String}
    (h : sql.toList.all isPlain = true) : expand sql params dialect = .ok (sql, []) := by
  rw [expand_of_expands (expands_self params dialect 0 h), String.ofList_toList]

/-- **The insert that is sent**: the columns, a placeholder for each, and the values that were
bound to the columns' names, in order. -/
theorem expand_insertStatement {params : Params} {dialect : Dialect} {table : String}
    {columns : List String} {values : List Value} {returning : Option String}
    (htable : isIdentifier table.toList = true)
    (hcolumns : ∀ c ∈ columns, isIdentifier c.toList = true)
    (hreturning : ∀ key ∈ returning, isIdentifier key.toList = true)
    (hbound : List.Forall₂ (fun c v => params.get? c = some v) columns values) :
    expand (insertStatement columns table returning) params dialect =
      .ok (insertText dialect table columns values returning, values) := by
  have hclose : Expands params dialect (0 + columns.length)
      (')' :: (returning.elim "" (" RETURNING " ++ ·)).toList)
      (')' :: (returning.elim "" (" RETURNING " ++ ·)).toList) [] := by
    refine expands_self _ _ _ ?_
    cases returning with
    | none => rfl
    | some key =>
      have hkey := isPlain_of_isIdentifier (hreturning key rfl)
      rw [Option.elim_some, String.toList_append, List.all_cons, List.all_append, hkey]
      decide
  have hparams := Expands.columns (fun _ => []) hbound hcolumns (fun _ _ => rfl) hclose
    (endsWord_cons (by decide) _)
  have hends : EndsWord (joined [',', ' '] (columns.map fun c => [] ++ ':' :: c.toList) ++
      ')' :: (returning.elim "" (" RETURNING " ++ ·)).toList) := by
    cases columns with
    | nil => exact endsWord_cons (by decide) _
    | cons c columns => cases columns <;> exact endsWord_cons (by decide) _
  have hopen : ("INSERT INTO " ++ table ++ " (" ++ joinWith ", " columns ++
      ") VALUES (").toList.all isPlain = true := by
    have hjoined : (joined ", ".toList (columns.map String.toList)).all isPlain = true := by
      refine all_isPlain_joined (by decide) fun p hp => ?_
      obtain ⟨c, hc, rfl⟩ := List.mem_map.1 hp
      exact isPlain_of_isIdentifier (hcolumns c hc)
    simp only [String.toList_append, List.all_append, toList_joinWith, hjoined,
      isPlain_of_isIdentifier htable]
    decide
  have h := hparams.plain hends _ hopen
  have hin : (insertStatement columns table returning).toList = ("INSERT INTO " ++ table ++ " (" ++
      joinWith ", " columns ++ ") VALUES (").toList ++
      (joined [',', ' '] (columns.map fun c => [] ++ ':' :: c.toList) ++
        ')' :: (returning.elim "" (" RETURNING " ++ ·)).toList) := by
    unfold insertStatement
    simp only [returningClause_of_isIdentifier hreturning, toList_joinWith,
      String.toList_append, List.map_map, Function.comp_def, List.append_assoc, toList_comma,
      toList_colon, toList_paren, List.cons_append, List.nil_append]
  have hout : (insertText dialect table columns values returning).toList = ("INSERT INTO " ++
      table ++ " (" ++ joinWith ", " columns ++ ") VALUES (").toList ++
      (joined [',', ' '] (List.zipWith (fun _ p => [] ++ p.toList) columns
        (slots dialect 0 values)) ++
        ')' :: (returning.elim "" (" RETURNING " ++ ·)).toList) := by
    rw [zipWith_placeholders (by rw [length_slots, hbound.length_eq])]
    unfold insertText
    simp only [toList_joinWith, String.toList_append, List.append_assoc, toList_comma,
      toList_paren, List.cons_append, List.nil_append]
  rw [← hin, ← hout, List.append_nil] at h
  rw [expand_of_expands h, String.ofList_toList]

theorem trim_condition {key : String} (h : isIdentifier key.toList = true) :
    trim (key ++ " = :" ++ key) = key ++ " = :" ++ key := by
  have hblank : ∀ c ∈ key.toList, isBlank c = false := fun c hc =>
    isBlank_of_isWordChar (isWordChar_of_isIdentifier h c hc)
  have hne : key.toList ≠ [] := by
    intro hnil
    simp [hnil, isIdentifier] at h
  have hhead : (key ++ " = :" ++ key).toList.head? = key.toList.head? := by
    rw [String.toList_append, String.toList_append, List.append_assoc,
      List.head?_append_of_ne_nil _ hne]
  have hlast : (key ++ " = :" ++ key).toList.getLast? = key.toList.getLast? := by
    rw [String.toList_append, List.getLast?_append_of_ne_nil _ hne]
  rw [trim, trimmed_eq_self, String.ofList_toList]
  · exact fun c hc => hblank c (List.mem_of_head? (hhead ▸ hc))
  · exact fun c hc => hblank c (List.mem_of_getLast? (hlast ▸ hc))

/-- **The update that is sent**: an assignment for each column, and the row's key bound last. -/
theorem expand_updateStatement (dialect : Dialect) {params : Params} {table key : String}
    {columns : List String} {values : List Value} {id : Value}
    (htable : isIdentifier table.toList = true)
    (hcolumns : ∀ c ∈ columns, isIdentifier c.toList = true)
    (hkey : isIdentifier key.toList = true)
    (hbound : List.Forall₂ (fun c v => params.get? c = some v) columns values)
    (hid : params.get? key = some id) :
    expand (updateStatement columns table (key ++ " = :" ++ key) none) params dialect =
      .ok (updateText dialect table columns values key id, values ++ [id]) := by
  have hkeyPlain := isPlain_of_isIdentifier hkey
  have hlen : values.length = 0 + columns.length := by rw [hbound.length_eq, Nat.zero_add]
  have hvalue : Expands params dialect (0 + columns.length) (':' :: key.toList ++ [])
      ((slot dialect (values.length + 1) id).toList ++ []) [id] := by
    rw [hlen]
    exact Expands.nil.param hkey hid endsWord_nil
  have hwhere := hvalue.plain (endsWord_cons (by decide) _) (" WHERE " ++ key ++ " = ").toList (by
    simp only [String.toList_append, List.all_append, hkeyPlain]
    decide)
  have hset := Expands.columns (fun c => c.toList ++ " = ".toList) hbound hcolumns
    (fun c hc => by
      rw [List.all_append, isPlain_of_isIdentifier (hcolumns c hc)]
      decide) hwhere
    (by
      rw [String.toList_append, String.toList_append]
      exact endsWord_cons (by decide) _)
  have h := (hset.mark (c := ' ') (by decide) (by decide)).plain (endsWord_cons (by decide) _)
    ("UPDATE " ++ table ++ " SET").toList (by
      simp only [String.toList_append, List.all_append, isPlain_of_isIdentifier htable]
      decide)
  have hcond : (key ++ " = :" ++ key).isEmpty = false := by
    rw [String.isEmpty_eq_false_iff]
    intro he
    simp at he
  have hin : (updateStatement columns table (key ++ " = :" ++ key) none).toList =
      ("UPDATE " ++ table ++ " SET").toList ++ ' ' ::
        (joined [',', ' '] (columns.map fun c => (c.toList ++ " = ".toList) ++ ':' :: c.toList) ++
          ((" WHERE " ++ key ++ " = ").toList ++ (':' :: key.toList ++ []))) := by
    unfold updateStatement
    simp only [trim_condition hkey, hcond, toList_joinWith, String.toList_append, List.map_map,
      Function.comp_def, List.append_assoc, toList_comma, toList_set, toList_assign,
      returningClause, Option.map_none, String.toList_empty, List.append_nil, List.cons_append,
      List.nil_append, Bool.false_eq_true, if_false]
  have hout : (updateText dialect table columns values key id).toList =
      ("UPDATE " ++ table ++ " SET").toList ++ ' ' ::
        (joined [',', ' '] (List.zipWith (fun c p => (c.toList ++ " = ".toList) ++ p.toList)
          columns (slots dialect 0 values)) ++
          ((" WHERE " ++ key ++ " = ").toList ++
            ((slot dialect (values.length + 1) id).toList ++ []))) := by
    unfold updateText
    simp only [toList_joinWith, String.toList_append, List.append_assoc, toList_comma,
      List.map_zipWith, toList_set, List.append_nil, List.cons_append, List.nil_append]
  rw [← hin, ← hout] at h
  rw [expand_of_expands h, String.ofList_toList]

end RecordLayer.Sql
