import RecordLayer.Proofs.Sql.Expansion
import RecordLayer.Proofs.Sql.Span

/-!
# Templates

A statement with named parameters is a template: texts, and holes with names between them.  Which
they are is a matter of the statement alone.  `IsParameter` says where a text has a parameter:
reading from the left, a colon that is in no span and in no pair of colons, with an identifier
behind it that is as long as can be.  The holes of the template are exactly the parameters, and a
statement is filled by putting placeholders into the holes and binding the values of their names
in order (`expand_exact`).

The proof goes along the text.  What comes next is a span, a pair of colons, a parameter, a word or
another character; each of them moves the parameters behind it on by its text, and likewise the
holes (`IsParameter.span_iff` and the others).
-/

namespace RecordLayer.Sql
open Text

/-! ### Parameters of a text -/

/-- A span begins the text. -/
def BeginsSpan (afterWord : Bool) (s : List Char) : Prop :=
  ∃ span rest, s = span ++ rest ∧ IsSpan afterWord span rest

/-- Between the two parts of a text is a place in no span and in no pair of colons: reading from
the left, one gets there past single characters, pairs of colons and whole spans. -/
inductive Outside : Bool → List Char → List Char → Prop where
  | here (afterWord rest) : Outside afterWord [] rest
  | char {afterWord c before rest} (hspan : ¬ BeginsSpan afterWord (c :: (before ++ rest)))
      (hpair : ¬ [':', ':'] <+: c :: (before ++ rest)) (h : Outside (isWordChar c) before rest) :
      Outside afterWord (c :: before) rest
  | pair {afterWord before rest} (h : Outside false before rest) :
      Outside afterWord (':' :: ':' :: before) rest
  | span {afterWord span before rest} (hspan : IsSpan afterWord span (before ++ rest))
      (h : Outside (span.getLast?.any isWordChar) before rest) :
      Outside afterWord (span ++ before) rest

/-- The text, standing behind a word character or not, has a parameter of the name between the two
parts. -/
structure IsParameter (afterWord : Bool) (s before name rest : List Char) : Prop where
  text : s = before ++ (':' :: name ++ rest)
  outside : Outside afterWord before (':' :: name ++ rest)
  identifier : isIdentifier name = true
  /-- The name is all of the identifier. -/
  whole : EndsWord rest

/-! ### Templates -/

/-- A text, and names of holes, each with the text behind it. -/
structure Template where
  first : List Char
  rest : List (String × List Char)

namespace Template

/-- The statement that the template is read from. -/
def source (t : Template) : List Char :=
  t.first ++ t.rest.flatMap fun hole => ':' :: hole.1.toList ++ hole.2

/-- The names of the holes, from left to right. -/
def names (t : Template) : List String :=
  t.rest.map (·.1)

/-- The template with texts in its holes, from left to right. -/
def written (t : Template) (slots : List String) : List Char :=
  t.first ++ (List.zipWith (fun slot hole => slot.toList ++ hole.2) slots t.rest).flatten

/-- A hole of the template, and the statement before and behind it. -/
def HasHole (t : Template) (before : List Char) (name : String) (rest : List Char) : Prop :=
  ∃ front text back, t.rest = front ++ (name, text) :: back ∧
    before = source ⟨t.first, front⟩ ∧ rest = source ⟨text, back⟩

/-- The template that pieces make up. -/
def ofPieces : List Piece → Template
  | []                  => ⟨[], []⟩
  | .text content :: ps => ⟨content ++ (ofPieces ps).first, (ofPieces ps).rest⟩
  | .param name :: ps   => ⟨[], (name, (ofPieces ps).first) :: (ofPieces ps).rest⟩

variable {ps : List Piece} {before rest content : List Char} {name other : String}

theorem source_text : (ofPieces (.text content :: ps)).source = content ++ (ofPieces ps).source :=
  List.append_assoc _ _ _

theorem source_param :
    (ofPieces (.param name :: ps)).source = ':' :: name.toList ++ (ofPieces ps).source :=
  List.append_assoc _ _ _

theorem not_hasHole_nil : ¬ (ofPieces []).HasHole before name rest := by
  rintro ⟨front, text, back, h, -, -⟩
  cases front <;> cases h

theorem hasHole_text_iff : (ofPieces (.text content :: ps)).HasHole before name rest ↔
    ∃ before', before = content ++ before' ∧ (ofPieces ps).HasHole before' name rest := by
  constructor
  · rintro ⟨front, text, back, hrest, rfl, rfl⟩
    exact ⟨_, List.append_assoc _ _ _, front, text, back, hrest, rfl, rfl⟩
  · rintro ⟨before', rfl, front, text, back, hrest, rfl, rfl⟩
    exact ⟨front, text, back, hrest, (List.append_assoc _ _ _).symm, rfl⟩

theorem hasHole_param_iff : (ofPieces (.param other :: ps)).HasHole before name rest ↔
    before = [] ∧ name = other ∧ rest = (ofPieces ps).source ∨
      ∃ before', before = ':' :: other.toList ++ before' ∧
        (ofPieces ps).HasHole before' name rest := by
  constructor
  · rintro ⟨front, text, back, hrest, rfl, rfl⟩
    cases front with
    | nil =>
      cases hrest
      exact .inl ⟨rfl, rfl, rfl⟩
    | cons hole front =>
      obtain ⟨rfl, htail⟩ := List.cons.inj hrest
      exact .inr ⟨_, List.append_assoc _ _ _, front, text, back, htail, rfl, rfl⟩
  · rintro (⟨rfl, rfl, rfl⟩ | ⟨before', rfl, front, text, back, hrest, rfl, rfl⟩)
    · exact ⟨[], (ofPieces ps).first, (ofPieces ps).rest, rfl, rfl, rfl⟩
    · refine ⟨(other, (ofPieces ps).first) :: front, text, back, ?_, ?_, rfl⟩
      · exact congrArg ((other, (ofPieces ps).first) :: ·) hrest
      · exact (List.append_assoc _ _ _).symm

end Template

/-! ### Reading on -/

theorem not_beginsSpan_of_enclosed? {afterWord : Bool} {c : Char} {s : List Char}
    (h : enclosed? afterWord c s = none) : ¬ BeginsSpan afterWord (c :: s) := by
  rintro ⟨span, rest, heq, hspan⟩
  obtain ⟨c', s', t, hs, hfound, -⟩ := enclosed?_of_isSpan hspan
  rw [hs] at heq
  cases heq
  rw [h] at hfound
  cases hfound

theorem not_beginsSpan_colon (afterWord : Bool) (s : List Char) :
    ¬ BeginsSpan afterWord (':' :: s) :=
  not_beginsSpan_of_enclosed? (by simp [enclosed?])

namespace IsParameter
variable {afterWord : Bool} {s before name rest : List Char}

theorem not_nil : ¬ IsParameter afterWord [] before name rest := by
  intro h
  have htext := congrArg List.length h.text
  simp at htext

/-- A place behind a span that begins the text is reached past the whole span. -/
theorem span_iff {span : List Char} (hspan : IsSpan afterWord span s) :
    IsParameter afterWord (span ++ s) before name rest ↔ ∃ before', before = span ++ before' ∧
      IsParameter (span.getLast?.any isWordChar) s before' name rest := by
  constructor
  · rintro ⟨htext, houtside, hname, hrest⟩
    have hbegins : BeginsSpan afterWord (before ++ (':' :: name ++ rest)) :=
      ⟨span, s, htext.symm, hspan⟩
    cases houtside with
    | here => exact absurd hbegins (not_beginsSpan_colon afterWord _)
    | char hnone => exact absurd hbegins hnone
    | pair => exact absurd hbegins (not_beginsSpan_colon afterWord _)
    | @span _ span' before' _ hspan' houtside =>
      rw [List.append_assoc] at htext
      obtain ⟨rfl, rfl⟩ := hspan.unique hspan' htext
      exact ⟨before', rfl, rfl, houtside, hname, hrest⟩
  · rintro ⟨before', rfl, rfl, houtside, hname, hrest⟩
    exact ⟨(List.append_assoc _ _ _).symm, .span hspan houtside, hname, hrest⟩

/-- A pair of colons is passed as a whole. -/
theorem pair_iff : IsParameter afterWord (':' :: ':' :: s) before name rest ↔
    ∃ before', before = ':' :: ':' :: before' ∧ IsParameter false s before' name rest := by
  constructor
  · rintro ⟨htext, houtside, hname, hrest⟩
    cases houtside with
    | here =>
      -- no name begins with a colon
      cases name with
      | nil => cases hname
      | cons c name =>
        cases htext
        cases hname
    | char _ hpair =>
      rw [List.cons_append] at htext
      exact absurd ⟨s, htext⟩ hpair
    | @pair _ before' _ houtside =>
      cases htext
      exact ⟨before', rfl, rfl, houtside, hname, hrest⟩
    | span hspan =>
      rw [List.append_assoc] at htext
      exact absurd ⟨_, _, htext, hspan⟩ (not_beginsSpan_colon afterWord _)
  · rintro ⟨before', rfl, rfl, houtside, hname, hrest⟩
    exact ⟨rfl, .pair houtside, hname, hrest⟩

/-- Any other character is passed, if it does not begin a parameter itself. -/
theorem char_iff {c : Char} (hspan : ¬ BeginsSpan afterWord (c :: s))
    (hpair : ¬ [':', ':'] <+: c :: s) : IsParameter afterWord (c :: s) before name rest ↔
      before = [] ∧ c = ':' ∧ s = name ++ rest ∧ isIdentifier name = true ∧ EndsWord rest ∨
      ∃ before', before = c :: before' ∧ IsParameter (isWordChar c) s before' name rest := by
  constructor
  · rintro ⟨htext, houtside, hname, hrest⟩
    cases houtside with
    | here =>
      cases htext
      exact .inl ⟨rfl, rfl, rfl, hname, hrest⟩
    | @char _ _ before' _ _ _ houtside =>
      cases htext
      exact .inr ⟨before', rfl, rfl, houtside, hname, hrest⟩
    | pair =>
      rw [htext] at hpair
      exact absurd ⟨_, rfl⟩ hpair
    | span hspan' =>
      rw [List.append_assoc] at htext
      exact absurd ⟨_, _, htext, hspan'⟩ hspan
  · rintro (⟨rfl, rfl, rfl, hname, hrest⟩ | ⟨before', rfl, rfl, houtside, hname, hrest⟩)
    · exact ⟨rfl, .here _ _, hname, hrest⟩
    · exact ⟨rfl, .char hspan hpair houtside, hname, hrest⟩

theorem wordChar_iff {c : Char} (hc : isWordChar c = true) :
    IsParameter afterWord (c :: s) before name rest ↔
      ∃ before', before = c :: before' ∧ IsParameter true s before' name rest := by
  have hspan : ¬ BeginsSpan afterWord (c :: s) :=
    not_beginsSpan_of_enclosed? (enclosed?_of_isPlain (isPlain_of_isWordChar hc) _ _)
  have hcolon : c ≠ ':' := by
    rintro rfl
    exact absurd hc (by decide)
  have hpair : ¬ [':', ':'] <+: c :: s := by
    rintro ⟨t, ht⟩
    exact hcolon (List.cons.inj ht).1.symm
  rw [char_iff hspan hpair, hc]
  exact or_iff_right fun h => hcolon h.2.1

/-- No parameter begins in a word. -/
theorem word_iff {c : Char} {word : List Char} (hword : ∀ d ∈ c :: word, isWordChar d = true) :
    IsParameter afterWord (c :: word ++ s) before name rest ↔
      ∃ before', before = c :: word ++ before' ∧ IsParameter true s before' name rest := by
  induction word generalizing afterWord before c with
  | nil => exact wordChar_iff (hword c List.mem_cons_self)
  | cons d word ih =>
    obtain ⟨hc, hword⟩ := List.forall_mem_cons.1 hword
    rw [List.cons_append, wordChar_iff hc]
    constructor
    · rintro ⟨before', rfl, h⟩
      obtain ⟨before'', rfl, h'⟩ := (ih hword).1 h
      exact ⟨before'', rfl, h'⟩
    · rintro ⟨before', rfl, h⟩
      exact ⟨_, rfl, (ih hword).2 ⟨before', rfl, h⟩⟩

/-- An identifier behind a colon is a parameter, and the next ones are behind it. -/
theorem param_iff {other : List Char} (hother : isIdentifier other = true) (hs : EndsWord s) :
    IsParameter afterWord (':' :: other ++ s) before name rest ↔
      before = [] ∧ name = other ∧ rest = s ∨
        ∃ before', before = ':' :: other ++ before' ∧ IsParameter true s before' name rest := by
  have hword := isWordChar_of_isIdentifier hother
  cases other with
  | nil => cases hother
  | cons c word =>
    have hpair : ¬ [':', ':'] <+: ':' :: (c :: word ++ s) := by
      rintro ⟨t, ht⟩
      cases ht
      cases hother
    rw [List.cons_append, char_iff (not_beginsSpan_colon _ _) hpair]
    refine or_congr ⟨?_, ?_⟩ ⟨?_, ?_⟩
    · rintro ⟨hbefore, -, heq, hname, hrest⟩
      -- two identifiers that are as long as can be are the same
      have htake := congrArg (List.takeWhile isWordChar) heq
      have hdrop := congrArg (List.dropWhile isWordChar) heq
      have hword' := isWordChar_of_isIdentifier hname
      rw [hs.takeWhile_append, hrest.takeWhile_append, List.takeWhile_eq_self_iff.2 hword,
        List.takeWhile_eq_self_iff.2 hword'] at htake
      rw [hs.dropWhile_append, hrest.dropWhile_append, List.dropWhile_eq_nil_iff.2 hword,
        List.dropWhile_eq_nil_iff.2 hword'] at hdrop
      exact ⟨hbefore, htake.symm, hdrop.symm⟩
    · rintro ⟨hbefore, rfl, rfl⟩
      exact ⟨hbefore, rfl, rfl, hother, hs⟩
    · rintro ⟨before', rfl, h⟩
      obtain ⟨before'', rfl, h'⟩ := (word_iff hword).1 h
      exact ⟨before'', rfl, h'⟩
    · rintro ⟨before', rfl, h⟩
      exact ⟨_, rfl, (word_iff hword).2 ⟨before', rfl, h⟩⟩

end IsParameter

/-! ### The template of a text -/

section
variable {afterWord : Bool} {c : Char} {s rest : List Char} {t : Token}

theorem piecesOf_span (h : enclosed? afterWord c s = some (t, rest)) :
    piecesOf (tokensFrom afterWord (c :: s)) =
      .text t.text :: piecesOf (tokensFrom (t.text.getLast?.any isWordChar) rest) := by
  have hfirst : firstToken afterWord c s = (t, rest) := by rw [firstToken, h]
  have hne : t ≠ .symbol ':' := by
    -- a single colon is no span
    rintro rfl
    have hspan := isSpan_of_enclosed? h
    exact not_beginsSpan_colon afterWord rest ⟨_, rest, rfl, hspan⟩
  rw [tokensFrom, hfirst, piecesOf_cons hne]

theorem piecesOf_word (h : enclosed? false c s = none) (hc : isWordStart c = true) :
    piecesOf (tokensFrom false (c :: s)) = .text (c :: s.takeWhile isWordChar) ::
      piecesOf (tokensFrom true (s.dropWhile isWordChar)) := by
  have hfirst : firstToken false c s =
      (.word (c :: s.takeWhile isWordChar), s.dropWhile isWordChar) := by
    rw [firstToken, h]
    exact if_pos ⟨hc, rfl⟩
  have hword : ∀ d ∈ c :: s.takeWhile isWordChar, isWordChar d = true :=
    List.forall_mem_cons.2 ⟨isWordChar_of_isWordStart hc, fun d => List.mem_takeWhile_imp⟩
  have hlast := getLast?_any_isWordChar (List.cons_ne_nil _ _) hword
  rw [tokensFrom, hfirst, piecesOf_cons (by simp), Token.text, hlast]

theorem firstToken_symbol (h : enclosed? afterWord c s = none)
    (hword : ¬ (isWordStart c = true ∧ (!afterWord) = true)) :
    firstToken afterWord c s = (.symbol c, s) := by
  rw [firstToken, h]
  exact if_neg hword

theorem piecesOf_symbol (h : enclosed? afterWord c s = none)
    (hword : ¬ (isWordStart c = true ∧ (!afterWord) = true)) (hc : c ≠ ':') :
    piecesOf (tokensFrom afterWord (c :: s)) =
      .text [c] :: piecesOf (tokensFrom (isWordChar c) s) := by
  rw [tokensFrom, firstToken_symbol h hword, piecesOf_cons (by simpa using hc)]
  rfl

theorem piecesOf_pair : piecesOf (tokensFrom afterWord (':' :: ':' :: s)) =
    .text [':', ':'] :: piecesOf (tokensFrom false s) := by
  rw [tokensFrom, firstToken_colon, tokensFrom, firstToken_colon, piecesOf]
  rfl

/-- Before a token that is neither a colon nor a word, a colon is kept. -/
theorem piecesOf_colon {ts : List Token} (h : ∀ t ∈ ts.head?, t ≠ .symbol ':' ∧ ∀ w, t ≠ .word w) :
    piecesOf (.symbol ':' :: ts) = .text [':'] :: piecesOf ts := by
  cases ts with
  | nil => rfl
  | cons t ts =>
    obtain ⟨hsymbol, hword⟩ := h t rfl
    rw [piecesOf]
    · rfl
    · rintro ts' - heq
      exact hsymbol (List.cons.inj heq).1
    · rintro w ts' - heq
      exact hword w (List.cons.inj heq).1

/-- A colon that is neither of a pair nor of a parameter is kept. -/
theorem piecesOf_lone (h : ∀ d ∈ s.head?, d ≠ ':' ∧ isWordStart d = false) :
    piecesOf (tokensFrom afterWord (':' :: s)) = .text [':'] :: piecesOf (tokensFrom false s) := by
  have hnext : ∀ t ∈ (tokensFrom false s).head?, t ≠ .symbol ':' ∧ ∀ w, t ≠ .word w := by
    cases s with
    | nil => simp [tokensFrom]
    | cons d s =>
      obtain ⟨hcolon, hstart⟩ := h d rfl
      rw [tokensFrom, List.head?_cons]
      rintro t ⟨⟩
      cases hspan : enclosed? false d s with
      | none =>
        rw [firstToken_symbol hspan (by simp [hstart])]
        exact ⟨by simpa using hcolon, by simp⟩
      | some span =>
        rw [firstToken, hspan]
        rcases quoted_or_comment_of_enclosed? hspan with ⟨content, heq⟩ | ⟨content, heq⟩
        · simp [heq]
        · simp [heq]
  rw [tokensFrom, firstToken_colon]
  exact piecesOf_colon hnext

end

theorem source_ofPieces (ts : List Token) :
    (Template.ofPieces (piecesOf ts)).source = textOf ts := by
  fun_induction piecesOf ts with
  | case1 => rfl
  | case2 ts ih =>
    rw [Template.source_text, ih]
    rfl
  | case3 name ts ih =>
    rw [Template.source_param, ih, String.toList_ofList]
    rfl
  | case4 t ts _ _ ih =>
    rw [Template.source_text, ih]
    rfl

/-- The template of a text writes the text. -/
theorem source_template (sql : String) : (Template.ofPieces (pieces sql)).source = sql.toList := by
  rw [pieces, source_ofPieces, textOf_tokens]

/-! ### The holes are the parameters -/

/-- The holes that are read from a text are its parameters. -/
def Faithful (afterWord : Bool) (s : List Char) : Prop :=
  ∀ before name rest,
    (Template.ofPieces (piecesOf (tokensFrom afterWord s))).HasHole before name rest ↔
      IsParameter afterWord s before name.toList rest

namespace Faithful
variable {afterWord : Bool} {c : Char} {s rest : List Char} {t : Token}

theorem nil : Faithful afterWord [] := fun before name rest => by
  rw [tokensFrom]
  exact iff_of_false Template.not_hasHole_nil IsParameter.not_nil

/-- Behind a text in which no parameter begins, holes and parameters move on together. -/
theorem behind {after : Bool} {content : List Char} (h : Faithful after rest)
    (hpieces : piecesOf (tokensFrom afterWord s) =
      .text content :: piecesOf (tokensFrom after rest))
    (hparameter : ∀ {before name behind}, IsParameter afterWord s before name behind ↔
      ∃ before', before = content ++ before' ∧ IsParameter after rest before' name behind) :
    Faithful afterWord s := fun before name behind => by
  rw [hpieces, Template.hasHole_text_iff, hparameter]
  exact exists_congr fun before' => and_congr_right fun _ => h before' name behind

theorem span (hspan : enclosed? afterWord c s = some (t, rest))
    (h : Faithful (t.text.getLast?.any isWordChar) rest) : Faithful afterWord (c :: s) := by
  refine h.behind (piecesOf_span hspan) ?_
  rw [← (enclosed?_append hspan).1]
  exact IsParameter.span_iff (isSpan_of_enclosed? hspan)

theorem pair (h : Faithful false s) : Faithful afterWord (':' :: ':' :: s) :=
  h.behind piecesOf_pair IsParameter.pair_iff

theorem param {name : List Char} (hname : isIdentifier name = true) (hs : EndsWord s)
    (h : Faithful true s) : Faithful afterWord (':' :: name ++ s) := fun before other rest => by
  rw [tokensFrom_param hname hs, piecesOf, Template.hasHole_param_iff,
    IsParameter.param_iff hname hs, String.toList_ofList, source_ofPieces, textOf_tokensFrom]
  refine or_congr ?_ (exists_congr fun before' => and_congr_right fun _ => h before' other rest)
  rw [String.ext_iff, String.toList_ofList]

theorem word (hspan : enclosed? false c s = none) (hc : isWordStart c = true)
    (h : Faithful true (s.dropWhile isWordChar)) : Faithful false (c :: s) := by
  refine h.behind (piecesOf_word hspan hc) ?_
  have hword : ∀ d ∈ c :: s.takeWhile isWordChar, isWordChar d = true :=
    List.forall_mem_cons.2 ⟨isWordChar_of_isWordStart hc, fun d => List.mem_takeWhile_imp⟩
  have hs : c :: s = c :: s.takeWhile isWordChar ++ s.dropWhile isWordChar := by
    rw [List.cons_append, List.takeWhile_append_dropWhile]
  intro before name behind
  rw [hs]
  exact IsParameter.word_iff hword

/-- A colon at which nothing begins is passed like another character. -/
theorem lone (hs : ∀ d ∈ s.head?, d ≠ ':' ∧ isWordStart d = false) (h : Faithful false s) :
    Faithful afterWord (':' :: s) := by
  refine h.behind (piecesOf_lone hs) ?_
  intro before name behind
  have hpair : ¬ [':', ':'] <+: ':' :: s := by
    rintro ⟨t, ht⟩
    cases ht
    exact (hs ':' rfl).1 rfl
  rw [IsParameter.char_iff (not_beginsSpan_colon _ _) hpair]
  refine or_iff_right ?_
  rintro ⟨-, -, rfl, hname, -⟩
  cases name with
  | nil => cases hname
  | cons d name =>
    rw [isIdentifier, (hs d rfl).2] at hname
    cases hname

theorem symbol (hspan : enclosed? afterWord c s = none)
    (hword : ¬ (isWordStart c = true ∧ (!afterWord) = true)) (hc : c ≠ ':')
    (h : Faithful (isWordChar c) s) : Faithful afterWord (c :: s) := by
  refine h.behind (piecesOf_symbol hspan hword hc) ?_
  intro before name behind
  have hpair : ¬ [':', ':'] <+: c :: s := by
    rintro ⟨t, ht⟩
    exact hc (List.cons.inj ht).1.symm
  rw [IsParameter.char_iff (not_beginsSpan_of_enclosed? hspan) hpair]
  exact or_iff_right fun hcolon => hc hcolon.2.1

/-- What stands behind a colon decides what the colon is. -/
theorem colon (afterWord : Bool)
    (h : ∀ {rest} after, rest.length < (':' :: s).length → Faithful after rest) :
    Faithful afterWord (':' :: s) := by
  cases s with
  | nil => exact .lone (by simp) (h false (Nat.lt_succ_self _))
  | cons d s =>
    by_cases hd : d = ':'
    · subst hd
      exact .pair (h false (Nat.lt_succ_of_lt (Nat.lt_succ_self _)))
    · cases hstart : isWordStart d with
      | true =>
        have hname := isIdentifier_takeWhile hstart s
        have hlt : (s.dropWhile isWordChar).length < (':' :: d :: s).length :=
          Nat.lt_succ_of_lt (Nat.lt_succ_of_le (List.length_dropWhile_le _ _))
        have hparam : Faithful afterWord
            (':' :: (d :: s.takeWhile isWordChar) ++ s.dropWhile isWordChar) :=
          .param hname (endsWord_dropWhile s) (h true hlt)
        rwa [List.cons_append, List.cons_append, List.takeWhile_append_dropWhile] at hparam
      | false =>
        refine .lone ?_ (h false (Nat.lt_succ_self _))
        rintro e ⟨⟩
        exact ⟨hd, hstart⟩

end Faithful

/-- What the scanner takes for parameters are the parameters, in every text. -/
theorem faithful (afterWord : Bool) (s : List Char) : Faithful afterWord s := by
  -- By the length of the text, since a step of the scanner takes several characters.
  induction hlen : s.length using Nat.strong_induction_on generalizing afterWord s with
  | _ k ih =>
    subst hlen
    have shorter : ∀ {rest} after, rest.length < s.length → Faithful after rest :=
      fun after hlt => ih _ hlt after _ rfl
    cases s with
    | nil => exact .nil
    | cons c s =>
      have htail : s.length < (c :: s).length := Nat.lt_succ_self _
      cases hspan : enclosed? afterWord c s with
      | some found =>
        obtain ⟨t, rest⟩ := found
        have hlt := length_firstToken_lt afterWord c s
        rw [firstToken, hspan] at hlt
        exact .span hspan (shorter _ hlt)
      | none =>
        by_cases hc : c = ':'
        · subst hc
          exact .colon afterWord shorter
        · by_cases hword : isWordStart c = true ∧ (!afterWord) = true
          · obtain ⟨hstart, hafter⟩ := hword
            obtain rfl : afterWord = false := by simpa using hafter
            exact .word hspan hstart
              (shorter _ (Nat.lt_succ_of_le (List.length_dropWhile_le _ _)))
          · exact .symbol hspan hword hc (shorter _ htail)

/-! ### Filling a template -/

section
variable {params : Params} {dialect : Dialect} {n : Nat} {ps : List Piece}

/-- Each hole takes the placeholder of the value that its name has. -/
theorem fill_of_bound {values : List Value} (h : List.Forall₂
    (fun name v => params.get? name = some v) (Template.ofPieces ps).names values) :
    fill params dialect n ps =
      .ok ((Template.ofPieces ps).written (slots dialect n values), values) := by
  induction ps generalizing n values with
  | nil =>
    cases h
    rfl
  | cons p ps ih =>
    cases p with
    | text content =>
      rw [fill, ih h]
      exact congrArg (fun text => Except.ok (text, values)) (List.append_assoc _ _ _).symm
    | param name =>
      obtain ⟨v, more, hv, hmore, rfl⟩ := List.forall₂_cons_left_iff.1 h
      rw [fill, hv]
      simp only [ih hmore]
      exact congrArg (fun text => Except.ok (text, v :: more)) (List.append_assoc _ _ _).symm

/-- Holes are filled from left to right, up to the first whose name has no value. -/
theorem fill_of_unbound {bound more : List String} {name : String}
    (hnames : (Template.ofPieces ps).names = bound ++ name :: more)
    (hbound : ∀ other ∈ bound, params.contains other = true)
    (hname : params.contains name = false) :
    fill params dialect n ps = .error (.missingParam name) := by
  induction ps generalizing n bound with
  | nil => cases bound <;> cases hnames
  | cons p ps ih =>
    cases p with
    | text content =>
      rw [fill, ih hnames hbound]
      rfl
    | param other =>
      rw [fill]
      cases bound with
      | nil =>
        cases hnames
        rw [Option.isNone_iff_eq_none.1 (Option.isSome_eq_false_iff.1 hname)]
      | cons other' bound =>
        obtain ⟨rfl, htail⟩ := List.cons.inj hnames
        obtain ⟨hv, hbound⟩ := List.forall_mem_cons.1 hbound
        obtain ⟨v, hv⟩ := Option.isSome_iff_exists.1 hv
        simp only [hv, ih htail hbound]
        rfl

/-- Only the names of the holes are looked up. -/
theorem fill_congr {params' : Params}
    (h : ∀ name ∈ (Template.ofPieces ps).names, params.get? name = params'.get? name) :
    fill params dialect n ps = fill params' dialect n ps := by
  induction ps generalizing n with
  | nil => rfl
  | cons p ps ih =>
    cases p with
    | text content => rw [fill, fill, ih h]
    | param name =>
      have hname : params.get? name = params'.get? name := h name List.mem_cons_self
      rw [fill, fill, hname]
      cases params'.get? name with
      | none => rfl
      | some v => simp only [ih fun other hother => h other (List.mem_cons_of_mem _ hother)]

/-- Names that all have a value have a list of values. -/
theorem exists_values {names : List String} (h : ∀ name ∈ names, params.contains name = true) :
    ∃ values, List.Forall₂ (fun name v => params.get? name = some v) names values := by
  induction names with
  | nil => exact ⟨[], .nil⟩
  | cons name names ih =>
    obtain ⟨hname, h⟩ := List.forall_mem_cons.1 h
    obtain ⟨v, hv⟩ := Option.isSome_iff_exists.1 hname
    obtain ⟨values, hvalues⟩ := ih h
    exact ⟨v :: values, .cons hv hvalues⟩

end

/-- **Expansion is exact.**  The statement alone says where its parameters are, and the statement
that is sent differs from it in these places only: if each name has a value, the parameters give
way to placeholders, numbered from the left, and the values are bound in the same order, a value
once for each place; otherwise the first name without a value is reported. -/
theorem expand_exact (sql : String) : ∃ t : Template,
    t.source = sql.toList ∧
    (∀ before name rest, t.HasHole before name rest ↔
      IsParameter false sql.toList before name.toList rest) ∧
    ∀ params : Params,
      ((∀ name ∈ t.names, params.contains name = true) →
        ∃ values, List.Forall₂ (fun name v => params.get? name = some v) t.names values ∧
          ∀ dialect, expand sql params dialect =
            .ok (.ofList (t.written (slots dialect 0 values)), values)) ∧
      (∀ bound name more, t.names = bound ++ name :: more →
        (∀ other ∈ bound, params.contains other = true) → params.contains name = false →
        ∀ dialect, expand sql params dialect = .error (.missingParam name)) ∧
      ∀ params' : Params, (∀ name ∈ t.names, params.get? name = params'.get? name) →
        ∀ dialect, expand sql params dialect = expand sql params' dialect := by
  refine ⟨.ofPieces (pieces sql), source_template sql, faithful false sql.toList,
    fun params => ⟨?_, ?_, ?_⟩⟩
  · intro hall
    obtain ⟨values, hvalues⟩ := exists_values hall
    refine ⟨values, hvalues, fun dialect => ?_⟩
    rw [expand, fill_of_bound hvalues]
    rfl
  · intro bound name more hnames hbound hname dialect
    rw [expand, fill_of_unbound hnames hbound hname]
    rfl
  · intro params' hagree dialect
    rw [expand, fill_congr hagree, expand]

end RecordLayer.Sql
