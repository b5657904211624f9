import RecordLayer.Proofs.Sql.Passage

/-!
# Expanded texts

What a text without a dollar sign is expanded to has no parameters any more, and the same spans as
the text.  `Settled` says of a text that it is kept whatever parameters there are, and which spans
it has, in both cases whatever character stands before it: so a text stays settled when a span, a
placeholder or a character that begins nothing is put before it.

The text and what it is filled to are passed together.  A placeholder behind a character could
matter only if it changed how the text goes on there, and it does not: a span is opened by a quote,
or by a second character that is no first one of a placeholder (`SameHead`).  What is put before a
settled text is settled because a dollar sign with a digit behind it opens no body
(`Settled.slot`).
-/

namespace RecordLayer.Sql
open Text

/-- The spans of a text, from left to right. -/
def spans (sql : String) : List Token :=
  spansFrom false sql.toList

/-- Whatever stands before it and whatever parameters there are, the text is kept, binds nothing
and has the spans. -/
structure Settled (s : List Char) (found : List Token) : Prop where
  kept : ∀ params dialect n afterWord, filled params dialect n afterWord s = .ok (s, [])
  spans : ∀ afterWord, spansFrom afterWord s = found

/-- A placeholder is a question mark, or a dollar sign and a number. -/
theorem placeholder_cases (dialect : Dialect) (n : Nat) : (dialect.placeholder n).toList = ['?'] ∨
    ∃ digits, digits ≠ [] ∧ (∀ c ∈ digits, c.isDigit = true) ∧
      (dialect.placeholder n).toList = '$' :: digits := by
  have hmark : "?".toList = ['?'] := rfl
  cases dialect with
  | sqlite => exact .inl hmark
  | mysql => exact .inl hmark
  | postgres =>
    refine .inr ⟨Nat.toDigits 10 n, Nat.toDigits_ne_nil,
      fun c hc => Nat.isDigit_of_mem_toDigits (by decide) (by decide) hc, ?_⟩
    rw [Dialect.placeholder, String.toList_append, Nat.toString_eq_repr, Nat.toList_repr]
    rfl

namespace Settled
variable {c : Char} {s content : List Char} {found : List Token}

theorem nil : Settled [] [] :=
  ⟨fun _ _ _ _ => filled_nil, fun _ => spansFrom_nil⟩

theorem char (h : Settled s found) (hspan : ∀ afterWord, enclosed? afterWord c s = none)
    (hlone : IsLone c s) : Settled (c :: s) found where
  kept params dialect n afterWord := by
    rw [filled_char (hspan afterWord) hlone, h.kept]
    rfl
  spans afterWord := by rw [spansFrom_char (hspan afterWord), h.spans]

theorem pair (h : Settled s found) : Settled (':' :: ':' :: s) found where
  kept params dialect n afterWord := by
    rw [filled_pair, h.kept]
    rfl
  spans afterWord := by
    rw [spansFrom_char (enclosed?_colon _ _), spansFrom_char (enclosed?_colon _ _), h.spans]

theorem span (h : Settled s found) (hspan : ∀ afterWord, IsSpan afterWord content s) :
    Settled (content ++ s) (spanToken content :: found) where
  kept params dialect n afterWord := by
    rw [filled_span (hspan afterWord), h.kept]
    rfl
  spans afterWord := by rw [spansFrom_span (hspan afterWord), h.spans]

theorem plain (h : Settled s found) (hcontent : content.all isPlain = true) :
    Settled (content ++ s) found := by
  induction content with
  | nil => exact h
  | cons c content ih =>
    rw [List.all_cons, Bool.and_eq_true] at hcontent
    obtain ⟨hc, hcontent⟩ := hcontent
    refine (ih hcontent).char (fun afterWord => enclosed?_of_isPlain hc _ _) ?_
    rintro rfl
    exact absurd hc (by decide)

/-- No body is opened by a dollar sign that a number stands behind. -/
theorem dollar {digits : List Char} (h : Settled s found) (hne : digits ≠ [])
    (hdigits : ∀ c ∈ digits, c.isDigit = true) : Settled ('$' :: (digits ++ s)) found := by
  have hplain : digits.all isPlain = true :=
    List.all_eq_true.2 fun c hc => isPlain_of_isWordChar (by
      rw [isWordChar, Char.isAlphanum, hdigits c hc, Bool.or_true, Bool.true_or])
  refine (h.plain hplain).char (fun afterWord => ?_) (fun hc => absurd hc (by decide))
  obtain ⟨d, digits, rfl⟩ := List.exists_cons_of_ne_nil hne
  have hdigit := hdigits d List.mem_cons_self
  rw [enclosed?_dollar_eq, List.cons_append, dollarMark?, List.head?_cons, Option.any_some,
    if_pos hdigit]
  cases afterWord <;> rfl

theorem placeholder (h : Settled s found) (dialect : Dialect) (n : Nat) :
    Settled ((dialect.placeholder n).toList ++ s) found := by
  rcases placeholder_cases dialect n with hmark | ⟨digits, hne, hdigits, hdollar⟩
  · rw [hmark]
    exact h.plain rfl
  · rw [hdollar]
    exact h.dollar hne hdigits

theorem decimalCast (h : Settled s found) (dialect : Dialect) :
    Settled (dialect.decimalCast.toList ++ s) found := by
  cases dialect with
  | postgres =>
    have hplain : "numeric".toList.all isPlain = true := by decide
    exact (h.plain hplain).pair
  | sqlite => exact h
  | mysql => exact h

/-- What is put in a parameter's place begins nothing and changes nothing behind it. -/
theorem slot (h : Settled s found) (dialect : Dialect) (n : Nat) (v : Value) :
    Settled ((slot dialect n v).toList ++ s) found := by
  cases v with
  | decimal d =>
    rw [Sql.slot, String.toList_append, List.append_assoc]
    exact (h.decimalCast dialect).placeholder dialect n
  | _ => exact h.placeholder dialect n

end Settled

/-! ### The text and what it is filled to -/

/-- Both texts begin with the same character, or the second one with a placeholder where the first
one begins with a parameter. -/
def SameHead (s out : List Char) : Prop :=
  out.head? = s.head? ∨ s.head? = some ':' ∧ (out.head? = some '$' ∨ out.head? = some '?')

section
variable {afterWord : Bool} {c : Char} {s out span : List Char} {found : List Token}

theorem SameHead.head?_eq_some_iff (h : SameHead s out) (hc : c ≠ '$' ∧ c ≠ '?' ∧ c ≠ ':') :
    out.head? = some c ↔ s.head? = some c := by
  obtain ⟨hdollar, hmark, hcolon⟩ := hc
  rcases h with h | ⟨hs, h | h⟩
  · rw [h]
  · simp [hs, h, hdollar.symm, hcolon.symm]
  · simp [hs, h, hmark.symm, hcolon.symm]

theorem SameHead.eq_nil (h : SameHead [] out) : out = [] := by
  rcases h with h | ⟨h, -⟩
  · exact List.head?_eq_none_iff.1 h
  · cases h

theorem sameHead_append {t : List Char} (hspan : span ≠ []) : SameHead (span ++ s) (span ++ t) := by
  obtain ⟨c, span, rfl⟩ := List.exists_cons_of_ne_nil hspan
  exact .inl rfl

/-- What is put in a parameter's place begins with its placeholder. -/
theorem sameHead_slot (dialect : Dialect) (n : Nat) (v : Value) :
    SameHead (':' :: s) ((slot dialect n v).toList ++ out) := by
  have hslot : ∃ cast, (slot dialect n v).toList = (dialect.placeholder n).toList ++ cast := by
    cases v with
    | decimal d => exact ⟨_, String.toList_append⟩
    | _ => exact ⟨[], (List.append_nil _).symm⟩
  obtain ⟨cast, hslot⟩ := hslot
  rw [hslot]
  rcases placeholder_cases dialect n with hmark | ⟨digits, -, -, hdollar⟩
  · rw [hmark]
    exact .inr ⟨rfl, .inr rfl⟩
  · rw [hdollar]
    exact .inr ⟨rfl, .inl rfl⟩

/-- A character that begins no span begins none before a placeholder either. -/
theorem SameHead.enclosed?_eq_none (h : SameHead s out) (hc : c ≠ '$')
    (hnone : enclosed? afterWord c s = none) (afterWord' : Bool) :
    enclosed? afterWord' c out = none := by
  rw [← Option.not_isSome_iff_eq_none, isSome_enclosed?_iff] at hnone ⊢
  rw [h.head?_eq_some_iff (c := '-') (by decide), h.head?_eq_some_iff (c := '*') (by decide)]
  rintro (hopen | hopen | hopen | hopen)
  · exact hnone (.inl hopen)
  · exact hnone (.inr (.inl hopen))
  · exact hnone (.inr (.inr (.inl hopen)))
  · exact hc hopen.1.1

theorem SameHead.isLone (h : SameHead s out) (hlone : IsLone c s) : IsLone c out := by
  intro hc d hd
  rcases h with h | ⟨hs, -⟩
  · exact hlone hc d (h ▸ hd)
  · exact absurd rfl (hlone hc ':' hs).1

/-- A span that a dollar sign does not open is closed before a placeholder too. -/
theorem SameHead.isSpan (h : SameHead s out) (hdollar : '$' ∉ span)
    (hspan : IsSpan afterWord span s) (afterWord' : Bool) : IsSpan afterWord' span out := by
  cases hspan with
  | quoted hquote hcontent hrest =>
    refine .quoted hquote hcontent (mt (h.head?_eq_some_iff ?_).1 hrest)
    rcases hquote with rfl | rfl | rfl <;> decide
  | openQuoted hquote hcontent =>
    rw [h.eq_nil]
    exact .openQuoted hquote hcontent
  | lineComment hcontent hrest =>
    refine .lineComment hcontent fun c hc => ?_
    rcases h with h | ⟨hs, -⟩
    · exact hrest c (h ▸ hc)
    · cases hrest ':' hs
  | comment hcontent => exact .comment hcontent
  | openComment hcontent =>
    rw [h.eq_nil]
    exact .openComment hcontent
  | body => exact absurd List.mem_cons_self hdollar
  | openBody => exact absurd List.mem_cons_self hdollar

/-- What a text without a dollar sign is filled to is settled, and has the spans of the text. -/
theorem settled_of_filled {params : Params} {dialect : Dialect} {n : Nat} {values : List Value}
    (hdollar : '$' ∉ s) (h : filled params dialect n afterWord s = .ok (out, values)) :
    Settled out (spansFrom afterWord s) ∧ SameHead s out := by
  -- Along the text, each step puts the same or a placeholder before what is settled already.
  induction afterWord, s using passage_induction generalizing n out values with
  | nil =>
    rw [filled_nil] at h
    cases h
    rw [spansFrom_nil]
    exact ⟨.nil, .inl rfl⟩
  | span afterWord span s hspan ih =>
    rw [List.mem_append, not_or] at hdollar
    rw [filled_span hspan] at h
    obtain ⟨rest, hrest, heq⟩ := exists_of_map_eq_ok h
    cases heq
    obtain ⟨hsettled, hhead⟩ := ih hdollar.2 hrest
    rw [spansFrom_span hspan]
    exact ⟨hsettled.span fun _ => hhead.isSpan hdollar.1 hspan _,
      sameHead_append hspan.ne_nil⟩
  | pair afterWord s ih =>
    rw [filled_pair] at h
    obtain ⟨rest, hrest, heq⟩ := exists_of_map_eq_ok h
    cases heq
    obtain ⟨hsettled, -⟩ := ih (fun hmem => hdollar (by simp [hmem])) hrest
    rw [spansFrom_char (enclosed?_colon _ _), spansFrom_char (enclosed?_colon _ _)]
    exact ⟨hsettled.pair, .inl rfl⟩
  | param afterWord name s hname hs ih =>
    rw [List.mem_append, not_or] at hdollar
    rw [filled_param hname hs] at h
    split at h
    · cases h
    · obtain ⟨rest, hrest, heq⟩ := exists_of_map_eq_ok h
      cases heq
      rw [spansFrom_param hname hs]
      exact ⟨(ih hdollar.2 hrest).1.slot _ _ _, sameHead_slot _ _ _⟩
  | char afterWord c s hspan hlone ih =>
    rw [List.mem_cons, not_or] at hdollar
    rw [filled_char hspan hlone] at h
    obtain ⟨rest, hrest, heq⟩ := exists_of_map_eq_ok h
    cases heq
    obtain ⟨hsettled, hhead⟩ := ih hdollar.2 hrest
    rw [spansFrom_char hspan]
    exact ⟨hsettled.char (hhead.enclosed?_eq_none (Ne.symm hdollar.1) hspan) (hhead.isLone hlone),
      .inl rfl⟩

/-- A settled text has no parameters. -/
theorem Settled.not_isParameter (h : Settled s found) (before name rest : List Char) :
    ¬ IsParameter afterWord s before name rest := by
  intro hparameter
  rw [← String.toList_ofList (l := name)] at hparameter
  obtain ⟨front, text, back, hrest, -, -⟩ := (faithful afterWord s _ _ _).2 hparameter
  have hne : (Template.ofPieces (piecesOf (tokensFrom afterWord s))).names ≠ [] := by
    rw [Template.names, hrest]
    simp
  obtain ⟨first, more, hnames⟩ := List.exists_cons_of_ne_nil hne
  have hfirst : _ = [] ++ first :: more := hnames
  -- without any parameters, the first name would be reported
  have hmissing : filled .empty .sqlite 0 afterWord s = .error (.missingParam first) :=
    fill_of_unbound hfirst (by simp) rfl
  rw [h.kept] at hmissing
  cases hmissing

end

/-- **Expansion settles.**  What a text without a dollar sign is expanded to has no parameter any
more, so it is sent as it stands whatever the parameters and the dialect are, and its quoted texts
and comments are those of the text, in the same order. -/
theorem expand_settles {sql out : String} {params : Params} {dialect : Dialect}
    {values : List Value} (hdollar : '$' ∉ sql.toList)
    (h : expand sql params dialect = .ok (out, values)) :
    (∀ params' dialect', expand out params' dialect' = .ok (out, [])) ∧
      (∀ before name rest, ¬ IsParameter false out.toList before name rest) ∧
        spans out = spans sql := by
  obtain ⟨⟨text, more⟩, hfilled, heq⟩ := exists_of_map_eq_ok h
  cases heq
  have hsettled : Settled text (spansFrom false sql.toList) :=
    (settled_of_filled hdollar hfilled).1
  have htext : (String.ofList text).toList = text := String.toList_ofList
  refine ⟨fun params' dialect' => ?_, fun before name rest => ?_, ?_⟩
  · refine expand_of_expands fun afterWord => ?_
    rw [htext]
    exact hsettled.kept params' dialect' 0 afterWord
  · rw [htext]
    exact hsettled.not_isParameter before name rest
  · rw [spans, htext]
    exact hsettled.spans false

/-- A statement with parameters side by side, a cast behind a decimal, a minus before a parameter,
and names in quotes and comments. -/
def crowded : String :=
  "SELECT :a:b, :d::int, 'it''s :x' /* :y */ FROM t WHERE a=-:a -- :q\n"

/-- The statement as it is sent. -/
def crowdedSent : String :=
  "SELECT $1$2, $3::numeric::int, 'it''s :x' /* :y */ FROM t WHERE a=-$4 -- :q\n"

/-- The values of its parameters. -/
def crowdedParams : Params :=
  .ofList [("a", .int 1), ("b", .text ":c"), ("d", .decimal ⟨false, 25, 1, by decide, by decide⟩)]

theorem expand_settles_crowded :
    '$' ∉ crowded.toList ∧
      (∃ values, expand crowded crowdedParams .postgres = .ok (crowdedSent, values)) ∧
      (∀ params dialect, expand crowdedSent params dialect = .ok (crowdedSent, [])) ∧
      (∀ before name rest, ¬ IsParameter false crowdedSent.toList before name rest) ∧
      spans crowdedSent =
        [.quoted "'it''s :x'".toList, .comment "/* :y */".toList, .comment "-- :q".toList] := by
  have hdollar : '$' ∉ crowded.toList := by decide +kernel
  have hsent : expand crowded crowdedParams .postgres = .ok (crowdedSent,
      [.int 1, .text ":c", .decimal ⟨false, 25, 1, by decide, by decide⟩, .int 1]) := by
    decide +kernel
  obtain ⟨hkept, hnone, hspans⟩ := expand_settles hdollar hsent
  exact ⟨hdollar, ⟨_, hsent⟩, hkept, hnone, hspans.trans (by decide +kernel)⟩

end RecordLayer.Sql
