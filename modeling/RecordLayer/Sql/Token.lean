import RecordLayer.Text.Mark
import RecordLayer.Text.Word

/-!
# SQL — Token

SQL text cut into tokens, as far as parameters and statements need it: spans whose inside does
not count (quoted literals and identifiers, dollar-quoted bodies, comments), words, and single
characters.  A span that is never closed runs to the end of the text.  The tokens of a text
write the text again, and none of them is empty.
-/

namespace RecordLayer.Sql
open Text

inductive Token where
  /-- a quoted literal or identifier, or a dollar-quoted body, with its marks -/
  | quoted (content : List Char)
  | comment (content : List Char)
  /-- a run of word characters that does not begin with a digit -/
  | word (letters : List Char)
  | symbol (c : Char)
deriving DecidableEq, Repr

/-- The text of a token as it stands in the script. -/
def Token.text : Token → List Char
  | quoted content  => content
  | comment content => content
  | word letters    => letters
  | symbol c        => [c]

/-! ### Spans -/

/-- Cuts behind the quote that closes a span; a doubled quote does not close it. -/
def throughQuote (quote : Char) : List Char → List Char × List Char
  | [] => ([], [])
  | [c] => ([c], [])
  | c :: d :: s =>
    if c = quote then
      if d = quote then
        let (inside, rest) := throughQuote quote s
        (c :: d :: inside, rest)
      else ([c], d :: s)
    else
      let (inside, rest) := throughQuote quote (d :: s)
      (c :: inside, rest)

/-- Cuts behind the first occurrence of a mark. -/
def throughMark (mark s : List Char) : List Char × List Char :=
  match cutFirst? mark s with
  | some (before, after) => (before ++ mark, after)
  | none => (s, [])

/-- The mark `$tag$` that opens a dollar-quoted body, given the text after its first `$`, and the
text after the mark; a tag does not begin with a digit. -/
def dollarMark? (s : List Char) : Option (List Char × List Char) :=
  if s.head?.any Char.isDigit then none
  else match s.dropWhile isWordChar with
    | '$' :: rest => some ('$' :: s.takeWhile isWordChar ++ ['$'], rest)
    | _ => none

/-- The span that begins with the character `c` before the text `s`, and the text after it.  A
dollar sign opens none behind a word character. -/
def enclosed? (afterWord : Bool) (c : Char) (s : List Char) : Option (Token × List Char) :=
  if c = '\'' ∨ c = '"' ∨ c = '\x60' then
    let inside := throughQuote c s
    some (.quoted (c :: inside.1), inside.2)
  else if c = '-' ∧ s.head? = some '-' then
    some (.comment (c :: s.takeWhile (· != '\n')), s.dropWhile (· != '\n'))
  else if c = '/' ∧ s.head? = some '*' then
    let inside := throughMark ['*', '/'] s.tail
    some (.comment (c :: '*' :: inside.1), inside.2)
  else if c = '$' ∧ !afterWord then
    (dollarMark? s).map fun (mark, s) =>
      let body := throughMark mark s
      (.quoted (mark ++ body.1), body.2)
  else none

/-- The first token of the text `c :: s`, and the text after it.  A word does not begin behind
another word character. -/
def firstToken (afterWord : Bool) (c : Char) (s : List Char) : Token × List Char :=
  match enclosed? afterWord c s with
  | some span => span
  | none =>
    if isWordStart c ∧ !afterWord then
      (.word (c :: s.takeWhile isWordChar), s.dropWhile isWordChar)
    else (.symbol c, s)

/-! ### A cut loses nothing -/

theorem throughQuote_append (quote : Char) (s : List Char) :
    (throughQuote quote s).1 ++ (throughQuote quote s).2 = s := by
  fun_induction throughQuote quote s <;> simp_all

theorem throughMark_append (mark s : List Char) :
    (throughMark mark s).1 ++ (throughMark mark s).2 = s := by
  rw [throughMark]
  split
  · rename_i h
    exact (eq_append_of_cutFirst? h).symm
  · simp

theorem eq_append_of_dollarMark? {s mark rest : List Char}
    (h : dollarMark? s = some (mark, rest)) : '$' :: s = mark ++ rest := by
  rw [dollarMark?] at h
  split at h
  · simp at h
  · split at h
    · rename_i tail ht
      obtain ⟨rfl, rfl⟩ := Prod.mk.inj (Option.some.inj h)
      have hs := List.takeWhile_append_dropWhile (p := isWordChar) (l := s)
      rw [ht] at hs
      simp [hs]
    · simp at h

/-- A span is the head of the text that it is cut from, and not empty. -/
theorem enclosed?_append {afterWord : Bool} {c : Char} {s rest : List Char} {t : Token}
    (h : enclosed? afterWord c s = some (t, rest)) :
    t.text ++ rest = c :: s ∧ t.text ≠ [] := by
  rw [enclosed?] at h
  split at h
  · obtain ⟨rfl, rfl⟩ := Prod.mk.inj (Option.some.inj h)
    simp [Token.text, throughQuote_append]
  · split at h
    · obtain ⟨rfl, rfl⟩ := Prod.mk.inj (Option.some.inj h)
      simp [Token.text]
    · split at h
      · rename_i hc
        obtain ⟨rfl, rfl⟩ := Prod.mk.inj (Option.some.inj h)
        cases s with
        | nil => simp at hc
        | cons d s =>
          obtain rfl : d = '*' := by simpa using hc.2
          simp [Token.text, throughMark_append]
      · split at h
        · rename_i hc
          obtain ⟨⟨mark, body⟩, hm, he⟩ := Option.map_eq_some_iff.1 h
          obtain ⟨rfl, rfl⟩ := Prod.mk.inj he
          have hs := eq_append_of_dollarMark? hm
          have hne : mark ≠ [] := by
            rintro rfl
            simp [dollarMark?] at hm
            split at hm <;> simp at hm
          obtain ⟨rfl, -⟩ := hc
          simp [Token.text, List.append_assoc, throughMark_append, hs, hne]
        · simp at h

theorem firstToken_append (afterWord : Bool) (c : Char) (s : List Char) :
    (firstToken afterWord c s).1.text ++ (firstToken afterWord c s).2 = c :: s ∧
      (firstToken afterWord c s).1.text ≠ [] := by
  rw [firstToken]
  split
  · rename_i span h
    exact enclosed?_append h
  · split <;> simp [Token.text]

theorem length_firstToken_lt (afterWord : Bool) (c : Char) (s : List Char) :
    (firstToken afterWord c s).2.length < (c :: s).length := by
  obtain ⟨happ, hne⟩ := firstToken_append afterWord c s
  rw [← happ, List.length_append]
  have := List.length_pos_iff.2 hne
  omega

/-! ### Tokens of a text -/

/-- The tokens of a text that stands behind a word character or not. -/
def tokensFrom (afterWord : Bool) : List Char → List Token
  | [] => []
  | c :: s =>
    let first := firstToken afterWord c s
    first.1 :: tokensFrom (first.1.text.getLast?.any isWordChar) first.2
termination_by s => s.length
decreasing_by exact length_firstToken_lt afterWord c s

/-- The tokens of a script. -/
def tokens (s : List Char) : List Token :=
  tokensFrom false s

/-- The text that tokens write. -/
def textOf (ts : List Token) : List Char :=
  ts.flatMap Token.text

theorem textOf_tokensFrom (afterWord : Bool) (s : List Char) :
    textOf (tokensFrom afterWord s) = s := by
  fun_induction tokensFrom afterWord s with
  | case1 => rfl
  | case2 afterWord c s first ih =>
    simp only [textOf, List.flatMap_cons] at ih ⊢
    rw [ih]
    exact (firstToken_append afterWord c s).1

/-- The tokens of a script write the script. -/
@[simp] theorem textOf_tokens (s : List Char) : textOf (tokens s) = s :=
  textOf_tokensFrom false s

end RecordLayer.Sql
