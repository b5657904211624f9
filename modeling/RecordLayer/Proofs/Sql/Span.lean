import Mathlib.Data.List.TakeWhile
import RecordLayer.Proofs.Text.Mark
import RecordLayer.Sql.Token

/-!
# Spans

A span is a stretch of SQL text whose inside does not count: a quoted literal or identifier, a
comment, or a dollar-quoted body.  `IsSpan` says how each of them is written, and what may follow
it; the scanner finds a span at the head of a text exactly if one stands there
(`isSpan_of_enclosed?`, `enclosed?_of_isSpan`).
-/

namespace RecordLayer.Sql
open Text

/-- The characters that open and close quoted text. -/
def IsQuote (c : Char) : Prop :=
  c = '\'' ∨ c = '"' ∨ c = '\x60'

/-- The quotes in a text stand in pairs. -/
inductive Paired (quote : Char) : List Char → Prop where
  | nil : Paired quote []
  | char {c s} (hc : c ≠ quote) (h : Paired quote s) : Paired quote (c :: s)
  | pair {s} (h : Paired quote s) : Paired quote (quote :: quote :: s)

/-- The tag of a dollar-quoted body: word characters, the first of them no digit. -/
def IsTag (tag : List Char) : Prop :=
  (∀ c ∈ tag, isWordChar c = true) ∧ ∀ c ∈ tag.head?, c.isDigit = false

/-- The mark that opens and closes a dollar-quoted body. -/
def dollarMark (tag : List Char) : List Char :=
  '$' :: tag ++ ['$']

/-- A span, and a text that may follow it.  One that is never closed runs to the end, and a dollar
sign opens none behind a word character. -/
inductive IsSpan (afterWord : Bool) : List Char → List Char → Prop where
  | quoted {quote content rest} (hquote : IsQuote quote) (hcontent : Paired quote content)
      (hrest : rest.head? ≠ some quote) : IsSpan afterWord (quote :: (content ++ [quote])) rest
  | openQuoted {quote content} (hquote : IsQuote quote) (hcontent : Paired quote content) :
      IsSpan afterWord (quote :: content) []
  | lineComment {content rest} (hcontent : '\n' ∉ content) (hrest : ∀ c ∈ rest.head?, c = '\n') :
      IsSpan afterWord ('-' :: '-' :: content) rest
  | comment {content rest} (hcontent : EndsAt ['*', '/'] content) :
      IsSpan afterWord ('/' :: '*' :: (content ++ ['*', '/'])) rest
  | openComment {content} (hcontent : ¬ ['*', '/'] <:+: content) :
      IsSpan afterWord ('/' :: '*' :: content) []
  | body {tag content rest} (hafter : afterWord = false) (htag : IsTag tag)
      (hcontent : EndsAt (dollarMark tag) content) :
      IsSpan afterWord (dollarMark tag ++ (content ++ dollarMark tag)) rest
  | openBody {tag content} (hafter : afterWord = false) (htag : IsTag tag)
      (hcontent : ¬ dollarMark tag <:+: content) : IsSpan afterWord (dollarMark tag ++ content) []

theorem IsSpan.ne_nil {afterWord : Bool} {span rest : List Char} (h : IsSpan afterWord span rest) :
    span ≠ [] := by
  cases h <;> exact List.cons_ne_nil _ _

/-! ### Quotes -/

theorem Paired.of_not_mem {quote : Char} {s : List Char} (h : quote ∉ s) : Paired quote s := by
  induction s with
  | nil => exact .nil
  | cons c s ih =>
    exact .char (List.ne_of_not_mem_cons h).symm (ih (List.not_mem_of_not_mem_cons h))

theorem Paired.append {quote : Char} {s t : List Char} (hs : Paired quote s)
    (ht : Paired quote t) : Paired quote (s ++ t) := by
  induction hs with
  | nil => exact ht
  | char hc _ ih => exact .char hc ih
  | pair _ ih => exact .pair ih

/-- What is cut off ends with the closing quote, or with the text if there is none. -/
theorem throughQuote_cases (quote : Char) (s : List Char) :
    (∃ content, (throughQuote quote s).1 = content ++ [quote] ∧ Paired quote content ∧
        (throughQuote quote s).2.head? ≠ some quote) ∨
      Paired quote (throughQuote quote s).1 ∧ (throughQuote quote s).2 = [] := by
  fun_induction throughQuote quote s with
  | case1 => exact .inr ⟨.nil, rfl⟩
  | case2 c =>
    by_cases hc : c = quote
    · subst hc
      exact .inl ⟨[], rfl, .nil, by simp⟩
    · exact .inr ⟨.char hc .nil, rfl⟩
  | case3 s inside rest hcut ih =>
    rw [hcut] at ih
    rcases ih with ⟨content, hinside, hcontent, hrest⟩ | ⟨hcontent, hrest⟩
    · exact .inl ⟨quote :: quote :: content, congrArg (quote :: quote :: ·) hinside,
        .pair hcontent, hrest⟩
    · exact .inr ⟨.pair hcontent, hrest⟩
  | case4 d s hd => exact .inl ⟨[], rfl, .nil, by simpa using hd⟩
  | case5 c d s hc inside rest hcut ih =>
    rw [hcut] at ih
    rcases ih with ⟨content, hinside, hcontent, hrest⟩ | ⟨hcontent, hrest⟩
    · exact .inl ⟨c :: content, congrArg (c :: ·) hinside, .char hc hcontent, hrest⟩
    · exact .inr ⟨.char hc hcontent, hrest⟩

theorem throughQuote_of_paired {quote : Char} {content : List Char} (h : Paired quote content) :
    throughQuote quote content = (content, []) := by
  induction h with
  | nil => rfl
  | @char c s hc h ih =>
    cases s with
    | nil => rfl
    | cons d s => rw [throughQuote, if_neg hc, ih]
  | pair h ih => rw [throughQuote, if_pos rfl, if_pos rfl, ih]

theorem throughQuote_append_quote {quote : Char} {content rest : List Char}
    (h : Paired quote content) (hrest : rest.head? ≠ some quote) :
    throughQuote quote (content ++ quote :: rest) = (content ++ [quote], rest) := by
  induction h with
  | nil =>
    cases rest with
    | nil => rfl
    | cons d rest =>
      have hd : d ≠ quote := fun heq => hrest (congrArg some heq)
      rw [List.nil_append, throughQuote, if_pos rfl, if_neg hd]
      rfl
  | @char c s hc h ih =>
    cases s with
    | nil =>
      rw [List.nil_append] at ih
      rw [List.cons_append, List.nil_append, throughQuote, if_neg hc, ih]
      rfl
    | cons d s =>
      rw [List.cons_append] at ih
      rw [List.cons_append, List.cons_append, throughQuote, if_neg hc, ih]
      rfl
  | pair h ih =>
    rw [List.cons_append, List.cons_append, throughQuote, if_pos rfl, if_pos rfl, ih]
    rfl

/-! ### Marks -/

theorem throughMark_cases (mark s : List Char) :
    (∃ content, (throughMark mark s).1 = content ++ mark ∧ EndsAt mark content) ∨
      ¬ mark <:+: (throughMark mark s).1 ∧ (throughMark mark s).2 = [] := by
  rw [throughMark]
  cases hcut : cutFirst? mark s with
  | none => exact .inr ⟨cutFirst?_eq_none_iff.1 hcut, rfl⟩
  | some cut => exact .inl ⟨cut.1, rfl, (cutFirst?_eq_some_iff.1 hcut).2⟩

theorem throughMark_append_mark {mark content : List Char} (h : EndsAt mark content)
    (rest : List Char) :
    throughMark mark (content ++ (mark ++ rest)) = (content ++ mark, rest) := by
  rw [throughMark, ← List.append_assoc, cutFirst?_append h]

theorem throughMark_of_not_infix {mark content : List Char} (h : ¬ mark <:+: content) :
    throughMark mark content = (content, []) := by
  rw [throughMark, cutFirst?_eq_none_iff.2 h]

/-! ### Tags -/

theorem of_dollarMark? {s mark rest : List Char} (h : dollarMark? s = some (mark, rest)) :
    ∃ tag, IsTag tag ∧ mark = dollarMark tag := by
  rw [dollarMark?] at h
  split at h
  · cases h
  · rename_i hdigit
    split at h
    · cases h
      refine ⟨s.takeWhile isWordChar, ⟨fun c => List.mem_takeWhile_imp, fun c hc => ?_⟩, rfl⟩
      cases s with
      | nil => cases hc
      | cons d s =>
        rw [List.takeWhile_cons] at hc
        split at hc
        · cases hc
          simpa using hdigit
        · cases hc
    · cases h

theorem dollarMark?_append {tag : List Char} (h : IsTag tag) (rest : List Char) :
    dollarMark? (tag ++ '$' :: rest) = some (dollarMark tag, rest) := by
  obtain ⟨hword, hdigit⟩ := h
  have hhead : ((tag ++ '$' :: rest).head?.any Char.isDigit) = false := by
    cases tag with
    | nil => rfl
    | cons c tag => exact hdigit c rfl
  have htake : (tag ++ '$' :: rest).takeWhile isWordChar = tag := by
    rw [List.takeWhile_append_of_pos hword]
    simp [show isWordChar '$' = false from by decide]
  have hdrop : (tag ++ '$' :: rest).dropWhile isWordChar = '$' :: rest := by
    rw [List.dropWhile_append_of_pos hword]
    simp [show isWordChar '$' = false from by decide]
  rw [dollarMark?, hhead, if_neg Bool.false_ne_true, hdrop, htake]
  rfl

theorem isSome_dollarMark?_iff {s : List Char} : (dollarMark? s).isSome = true ↔
    s.head?.any Char.isDigit = false ∧ (s.dropWhile isWordChar).head? = some '$' := by
  rw [dollarMark?]
  split
  · rename_i hdigit
    simp [hdigit]
  · rename_i hdigit
    split
    · rename_i hdollar
      simp [hdigit, hdollar]
    · rename_i hdollar
      refine iff_of_false (by simp) ?_
      rintro ⟨-, hhead⟩
      obtain ⟨rest, hrest⟩ := List.head?_eq_some_iff.1 hhead
      exact hdollar rest hrest

/-! ### Lines -/

theorem head?_dropWhile_newline (s : List Char) :
    ∀ c ∈ (s.dropWhile (· != '\n')).head?, c = '\n' := by
  intro c hc
  have hnot := List.head?_dropWhile_not (· != '\n') s
  rw [Option.mem_def.1 hc] at hnot
  simpa using hnot

/-- A line ends where the next one begins, or with the text. -/
theorem cut_append_newline {line rest : List Char} (hline : '\n' ∉ line)
    (hrest : ∀ c ∈ rest.head?, c = '\n') :
    (line ++ rest).takeWhile (· != '\n') = line ∧ (line ++ rest).dropWhile (· != '\n') = rest := by
  have hall : ∀ c ∈ line, (c != '\n') = true := by
    intro c hc
    rw [bne_iff_ne]
    rintro rfl
    exact hline hc
  rw [List.takeWhile_append_of_pos hall, List.dropWhile_append_of_pos hall]
  cases rest with
  | nil => exact ⟨List.append_nil _, rfl⟩
  | cons c rest =>
    obtain rfl := hrest c rfl
    exact ⟨List.append_nil _, rfl⟩

/-! ### The scanner finds the spans -/

theorem isSpan_of_enclosed? {afterWord : Bool} {c : Char} {s rest : List Char} {t : Token}
    (h : enclosed? afterWord c s = some (t, rest)) : IsSpan afterWord t.text rest := by
  rw [enclosed?] at h
  split at h
  · rename_i hquote
    cases h
    rcases throughQuote_cases c s with ⟨content, hinside, hcontent, hrest⟩ | ⟨hcontent, hrest⟩
    · rw [Token.text, hinside]
      exact .quoted hquote hcontent hrest
    · rw [hrest]
      exact .openQuoted hquote hcontent
  · split at h
    · rename_i hdash
      cases h
      obtain ⟨rfl, hdash⟩ := hdash
      cases s with
      | nil => cases hdash
      | cons d s =>
        cases hdash
        exact .lineComment (fun hmem => by simpa using List.mem_takeWhile_imp hmem)
          (head?_dropWhile_newline s)
    · split at h
      · rename_i hstar
        cases h
        obtain ⟨rfl, hstar⟩ := hstar
        cases s with
        | nil => cases hstar
        | cons d s =>
          rcases throughMark_cases ['*', '/'] s with
            ⟨content, hinside, hcontent⟩ | ⟨hcontent, hrest⟩
          · rw [Token.text, List.tail_cons, hinside]
            exact .comment hcontent
          · rw [List.tail_cons, hrest]
            exact .openComment hcontent
      · split at h
        · rename_i hdollar
          obtain ⟨⟨mark, s'⟩, hmark, heq⟩ := Option.map_eq_some_iff.1 h
          cases heq
          obtain ⟨tag, htag, rfl⟩ := of_dollarMark? hmark
          have hafter : afterWord = false := by simpa using hdollar.2
          rcases throughMark_cases (dollarMark tag) s' with
            ⟨content, hinside, hcontent⟩ | ⟨hcontent, hrest⟩
          · rw [Token.text, hinside]
            exact .body hafter htag hcontent
          · rw [hrest]
            exact .openBody hafter htag hcontent
        · cases h

/-- What opens a span is told by its first characters. -/
theorem isSome_enclosed?_iff {afterWord : Bool} {c : Char} {s : List Char} :
    (enclosed? afterWord c s).isSome = true ↔
      IsQuote c ∨ (c = '-' ∧ s.head? = some '-') ∨ (c = '/' ∧ s.head? = some '*') ∨
        ((c = '$' ∧ (!afterWord) = true) ∧ (dollarMark? s).isSome = true) := by
  rw [enclosed?]
  split
  · rename_i h
    exact iff_of_true rfl (.inl h)
  · rename_i hquote
    change ¬ IsQuote c at hquote
    split
    · rename_i h
      exact iff_of_true rfl (.inr (.inl h))
    · rename_i hdash
      split
      · rename_i h
        exact iff_of_true rfl (.inr (.inr (.inl h)))
      · rename_i hstar
        split
        · rename_i h
          rw [Option.isSome_map, or_iff_right hquote, or_iff_right hdash, or_iff_right hstar]
          exact (and_iff_right h).symm
        · rename_i h
          rw [or_iff_right hquote, or_iff_right hdash, or_iff_right hstar]
          exact iff_of_false Bool.false_ne_true fun hdollar => h hdollar.1

/-- A span is a token of its own kind. -/
theorem quoted_or_comment_of_enclosed? {afterWord : Bool} {c : Char} {s : List Char}
    {found : Token × List Char} (h : enclosed? afterWord c s = some found) :
    (∃ content, found.1 = .quoted content) ∨ ∃ content, found.1 = .comment content := by
  rw [enclosed?] at h
  split at h
  · cases h
    exact .inl ⟨_, rfl⟩
  · split at h
    · cases h
      exact .inr ⟨_, rfl⟩
    · split at h
      · cases h
        exact .inr ⟨_, rfl⟩
      · split at h
        · obtain ⟨mark, -, rfl⟩ := Option.map_eq_some_iff.1 h
          exact .inl ⟨_, rfl⟩
        · cases h

section
variable (afterWord : Bool) (s : List Char)

theorem enclosed?_quote {quote : Char} (h : IsQuote quote) : enclosed? afterWord quote s =
    some (.quoted (quote :: (throughQuote quote s).1), (throughQuote quote s).2) :=
  if_pos h

theorem enclosed?_line : enclosed? afterWord '-' ('-' :: s) =
    some (.comment ('-' :: '-' :: s.takeWhile (· != '\n')), s.dropWhile (· != '\n')) := by
  simp [enclosed?]

theorem enclosed?_comment : enclosed? afterWord '/' ('*' :: s) =
    some (.comment ('/' :: '*' :: (throughMark ['*', '/'] s).1),
      (throughMark ['*', '/'] s).2) := by
  simp [enclosed?]

theorem enclosed?_dollar_eq : enclosed? afterWord '$' s = if afterWord then none else
    (dollarMark? s).map fun (mark, rest) =>
      (.quoted (mark ++ (throughMark mark rest).1), (throughMark mark rest).2) := by
  cases afterWord <;> simp [enclosed?]

theorem enclosed?_dollar {tag : List Char} (h : IsTag tag) :
    enclosed? false '$' (tag ++ '$' :: s) =
      some (.quoted (dollarMark tag ++ (throughMark (dollarMark tag) s).1),
        (throughMark (dollarMark tag) s).2) := by
  rw [enclosed?_dollar_eq, if_neg Bool.false_ne_true, dollarMark?_append h]
  rfl

end

/-- Where a span stands, the scanner finds it. -/
theorem enclosed?_of_isSpan {afterWord : Bool} {span rest : List Char}
    (h : IsSpan afterWord span rest) : ∃ c s t, span ++ rest = c :: s ∧
      enclosed? afterWord c s = some (t, rest) ∧ t.text = span := by
  cases h with
  | @quoted quote content rest hquote hcontent hrest =>
    refine ⟨quote, content ++ quote :: rest, .quoted (quote :: (content ++ [quote])), ?_, ?_, rfl⟩
    · simp
    · rw [enclosed?_quote _ _ hquote, throughQuote_append_quote hcontent hrest]
  | @openQuoted quote content hquote hcontent =>
    refine ⟨quote, content, .quoted (quote :: content), List.append_nil _, ?_, rfl⟩
    rw [enclosed?_quote _ _ hquote, throughQuote_of_paired hcontent]
  | @lineComment content rest hcontent hrest =>
    refine ⟨'-', '-' :: (content ++ rest), .comment ('-' :: '-' :: content), rfl, ?_, rfl⟩
    obtain ⟨htake, hdrop⟩ := cut_append_newline hcontent hrest
    rw [enclosed?_line, htake, hdrop]
  | @comment content rest hcontent =>
    refine ⟨'/', '*' :: (content ++ (['*', '/'] ++ rest)),
      .comment ('/' :: '*' :: (content ++ ['*', '/'])), by simp, ?_, rfl⟩
    rw [enclosed?_comment, throughMark_append_mark hcontent]
  | @openComment content hcontent =>
    refine ⟨'/', '*' :: content, .comment ('/' :: '*' :: content), List.append_nil _, ?_, rfl⟩
    rw [enclosed?_comment, throughMark_of_not_infix hcontent]
  | @body tag content rest hafter htag hcontent =>
    refine ⟨'$', tag ++ '$' :: (content ++ (dollarMark tag ++ rest)),
      .quoted (dollarMark tag ++ (content ++ dollarMark tag)), by simp [dollarMark], ?_, rfl⟩
    rw [hafter, enclosed?_dollar _ htag, throughMark_append_mark hcontent]
  | @openBody tag content hafter htag hcontent =>
    refine ⟨'$', tag ++ '$' :: content, .quoted (dollarMark tag ++ content), by simp [dollarMark],
      ?_, rfl⟩
    rw [hafter, enclosed?_dollar _ htag, throughMark_of_not_infix hcontent]

/-- The text says where a span ends. -/
theorem IsSpan.unique {afterWord : Bool} {span rest span' rest' : List Char}
    (h : IsSpan afterWord span rest) (h' : IsSpan afterWord span' rest')
    (heq : span ++ rest = span' ++ rest') : span = span' ∧ rest = rest' := by
  obtain ⟨c, s, t, hs, hfound, rfl⟩ := enclosed?_of_isSpan h
  obtain ⟨c', s', t', hs', hfound', rfl⟩ := enclosed?_of_isSpan h'
  rw [hs, hs'] at heq
  cases heq
  rw [hfound] at hfound'
  cases hfound'
  exact ⟨rfl, rfl⟩

end RecordLayer.Sql
