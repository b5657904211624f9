import RecordLayer.Proofs.Sql.Span
import RecordLayer.Proofs.Text.Position

/-!
# How far a span reaches

The end of a span may also be looked for by positions (`spanEnd?`), with a way of its own for every
form: quoted text is gone through byte by byte, with a look behind each quote; a line, a comment and
a body are searched for what closes them; and the mark of a body is cut out of the text first.  At a
character this finds the span that the text is cut at (`spanEnd?_append`), and inside of a character
it finds none (`spanEnd?_inside`), so no end that is found is inside of one.

With what is known of the spans themselves it follows that each form is measured exactly, whatever
its content, and that one that is never closed runs to the end of the text
(`measured_spans`).
-/

namespace RecordLayer.Sql
open Text

/-! ### Spans by positions -/

/-- The character before the position is a word character. -/
def isBehindWord (s : List Char) (i : Nat) : Except Slip Bool :=
  if i = 0 then .ok false
  else do
    let b ← octet s (i - 1)
    .ok (isWordChar b)

/-- One round in quoted text: a doubled quote does not close it. -/
def quoteRound (s : List Char) (quote : Char) (i : Nat) : Except Slip (Turn Unit Nat) := do
  let b ← octet s i
  if b = quote then
    if (octets s)[i + 1]? = some quote then .ok (.on (i + 2) ()) else .ok (.done (i + 1))
  else .ok (.on (i + 1) ())

/-- The end of quoted text, of which the position is behind the opening quote. -/
def quoteEnd (s : List Char) (quote : Char) (i : Nat) : Except Slip Nat :=
  loop (size s) (fun i _ => quoteRound s quote i) (fun _ => .ok (size s)) i ()

/-- The end of a line. -/
def lineEnd (s : List Char) (i : Nat) : Except Slip Nat := do
  let rest ← slice s i (size s)
  match find? ['\n'] rest with
  | some n => .ok (i + n)
  | none   => .ok (size s)

/-- The end of what a mark closes. -/
def markEnd (s mark : List Char) (i : Nat) : Except Slip Nat := do
  let rest ← slice s i (size s)
  match find? mark rest with
  | some n => .ok (i + n + size mark)
  | none   => .ok (size s)

/-- The end of a dollar-quoted body, if its mark begins with the dollar sign at the position. -/
def bodyEnd? (s : List Char) (i : Nat) : Except Slip (Option Nat) := do
  let behindWord ← isBehindWord s i
  if behindWord then .ok none
  else
    let tagEnd ← wordEnd s (i + 1)
    if (octets s)[tagEnd]? ≠ some '$' ∨ (octets s)[i + 1]?.any Char.isDigit then .ok none
    else
      let mark ← slice s i (tagEnd + 1)
      let stop ← markEnd s mark (tagEnd + 1)
      .ok (some stop)

/-- The end of the span that begins at the position, if one does. -/
def spanEnd? (s : List Char) (i : Nat) : Except Slip (Option Nat) := do
  let b ← octet s i
  if b = '\'' ∨ b = '"' ∨ b = '\x60' then some <$> quoteEnd s b (i + 1)
  else if b = '-' ∧ (octets s)[i + 1]? = some '-' then some <$> lineEnd s i
  else if b = '/' ∧ (octets s)[i + 1]? = some '*' then some <$> markEnd s ['*', '/'] (i + 2)
  else if b = '$' then bodyEnd? s i
  else .ok none

/-! ### Where the scanner stands at a character -/

section
variable {c quote : Char} {a s t : List Char}

theorem isBehindWord_append (a s : List Char) :
    isBehindWord (a ++ s) (size a) = .ok (a.getLast?.any isWordChar) := by
  induction a using List.reverseRecOn with
  | nil => rfl
  | append_singleton a c =>
    obtain ⟨b, hoctet, hword⟩ := exists_octet_before a c s
    have hpos : size (a ++ [c]) ≠ 0 := by
      have := size_pos c
      rw [size_append]
      omega
    rw [isBehindWord, if_neg hpos, hoctet, ok_bind, hword, List.getLast?_concat, Option.any_some]

theorem toNat_lt_of_isQuote (h : IsQuote quote) : quote.toNat < 128 := by
  rcases h with rfl | rfl | rfl <;> decide

/-- No byte of another character is the quote. -/
theorem ne_of_mem_octets (hquote : quote.toNat < 128) (hc : c ≠ quote) {b : Char}
    (hb : b ∈ octets [c]) : b ≠ quote := by
  rcases Nat.lt_or_ge c.toNat 128 with hlt | hge
  · rw [octets_singleton hlt, List.mem_singleton] at hb
    rwa [hb]
  · have hbyte := le_toNat_of_mem_octets hge b hb
    rintro rfl
    omega

theorem getElem?_octets_next_eq_some_iff {d : Char} (hc : c.toNat < 128) (hd : d.toNat < 128)
    (a s : List Char) : (octets (a ++ c :: s))[size a + 1]? = some d ↔ s.head? = some d := by
  rw [getElem?_octets_next hc]
  cases s with
  | nil => simp
  | cons e s => simp [lead_eq_iff hd]

theorem quoteEnd_of_ne (hquote : quote.toNat < 128) (hc : c ≠ quote) (a s : List Char) :
    quoteEnd (a ++ c :: s) quote (size a) = quoteEnd (a ++ c :: s) quote (size (a ++ [c])) := by
  have hstop : size a + size [c] ≤ size (a ++ c :: s) := by
    rw [size_append, size_cons c s]
    omega
  rw [size_append]
  refine loop_steps (size [c]) hstop fun k hk => ?_
  obtain ⟨b, hb, hoctet⟩ := exists_octet hk a s
  rw [quoteRound, hoctet, ok_bind, if_neg (ne_of_mem_octets hquote hc hb)]

theorem quoteEnd_of_pair (hquote : quote.toNat < 128) (a s : List Char) :
    quoteEnd (a ++ quote :: quote :: s) quote (size a) =
      quoteEnd (a ++ quote :: quote :: s) quote (size (a ++ [quote, quote])) := by
  have hsize : size (a ++ [quote, quote]) = size a + 2 := by
    rw [size_append, size_cons, size_singleton hquote]
  have hstop : size a < size (a ++ quote :: quote :: s) := by
    have := size_pos quote
    rw [size_append, size_cons]
    omega
  have hnext : (octets (a ++ quote :: quote :: s))[size a + 1]? = some quote :=
    (getElem?_octets_next_eq_some_iff hquote hquote a _).2 rfl
  have hround : quoteRound (a ++ quote :: quote :: s) quote (size a) =
      .ok (.on (size a + 2) ()) := by
    rw [quoteRound, octet_append, ok_bind, if_pos (lead_eq_self hquote), if_pos hnext]
  rw [hsize]
  exact loop_on hstop hround (by omega)

theorem quoteEnd_of_close (hquote : quote.toNat < 128) (hs : s.head? ≠ some quote)
    (a : List Char) : quoteEnd (a ++ quote :: s) quote (size a) = .ok (size a + 1) := by
  have hstop : size a < size (a ++ quote :: s) := by
    have := size_pos quote
    rw [size_append, size_cons]
    omega
  have hnext : ¬ (octets (a ++ quote :: s))[size a + 1]? = some quote :=
    mt (getElem?_octets_next_eq_some_iff hquote hquote a s).1 hs
  have hround : quoteRound (a ++ quote :: s) quote (size a) = .ok (.done (size a + 1)) := by
    rw [quoteRound, octet_append, ok_bind, if_pos (lead_eq_self hquote), if_neg hnext]
  exact loop_done hstop hround

/-- Quoted text ends where the scanner cuts it. -/
theorem quoteEnd_append (hquote : quote.toNat < 128) (a s : List Char) :
    quoteEnd (a ++ s) quote (size a) = .ok (size a + size (throughQuote quote s).1) := by
  have nothing : ∀ a, quoteEnd (a ++ []) quote (size a) = .ok (size a) := fun a => by
    rw [quoteEnd, List.append_nil, loop_stop (Nat.le_refl _)]
  fun_induction throughQuote quote s generalizing a with
  | case1 => exact nothing a
  | case2 c =>
    by_cases hc : c = quote
    · subst hc
      rw [quoteEnd_of_close hquote (by simp), size_singleton hquote]
    · have h := nothing (a ++ [c])
      rw [List.append_assoc, List.singleton_append] at h
      rw [quoteEnd_of_ne hquote hc, h, size_append]
  | case3 s inside rest hcut ih =>
    have h := ih (a ++ [quote, quote])
    rw [hcut, List.append_assoc, List.cons_append, List.singleton_append] at h
    have hsize : size (quote :: quote :: inside) = size [quote, quote] + size inside :=
      size_append [quote, quote] inside
    rw [quoteEnd_of_pair hquote, h, size_append, hsize, Nat.add_assoc]
  | case4 d s hd =>
    rw [quoteEnd_of_close hquote (by simpa using hd), size_singleton hquote]
  | case5 c d s hc inside rest hcut ih =>
    have h := ih (a ++ [c])
    rw [hcut, List.append_assoc, List.singleton_append] at h
    rw [quoteEnd_of_ne hquote hc, h, size_append, size_cons c inside, Nat.add_assoc]

theorem lineEnd_append (a s : List Char) :
    lineEnd (a ++ s) (size a) = .ok (size a + size (s.takeWhile (· != '\n'))) := by
  rw [lineEnd, slice_append_size, ok_bind, find?]
  cases hcut : cutFirst? ['\n'] s with
  | none =>
    have hline : s.takeWhile (· != '\n') = s := by
      refine List.takeWhile_eq_self_iff.2 fun c hc => ?_
      rw [bne_iff_ne]
      rintro rfl
      obtain ⟨front, back, rfl⟩ := List.append_of_mem hc
      exact cutFirst?_eq_none_iff.1 hcut ⟨front, back, by simp⟩
    rw [hline, ← size_append]
    rfl
  | some cut =>
    obtain ⟨hs, hends⟩ := cutFirst?_eq_some_iff.1 hcut
    have hline : (cut.1 ++ '\n' :: cut.2).takeWhile (· != '\n') = cut.1 :=
      (cut_append_newline hends.not_mem (by simp)).1
    rw [hs, List.append_assoc, List.singleton_append, hline]
    rfl

theorem markEnd_append (mark a s : List Char) :
    markEnd (a ++ s) mark (size a) = .ok (size a + size (throughMark mark s).1) := by
  rw [markEnd, slice_append_size, ok_bind, find?, throughMark]
  cases hcut : cutFirst? mark s with
  | none =>
    rw [size_append]
    rfl
  | some cut =>
    simp only [Option.map_some, size_append, Nat.add_assoc]

theorem getElem?_octets_size_eq_some_iff {d : Char} (hd : d.toNat < 128) (a s : List Char) :
    (octets (a ++ s))[size a]? = some d ↔ s.head? = some d := by
  have hget := getElem?_octets_append a s 0
  rw [Nat.add_zero, ← List.head?_eq_getElem?, head?_octets] at hget
  rw [hget]
  cases s with
  | nil => simp
  | cons e s => simp [lead_eq_iff hd]

theorem any_next {p : Char → Bool} (hp : AsciiOnly p) (hc : c.toNat < 128) (a s : List Char) :
    (octets (a ++ c :: s))[size a + 1]?.any p = s.head?.any p := by
  rw [getElem?_octets_next hc]
  cases s with
  | nil => rfl
  | cons d s => exact apply_lead hp d

theorem toNat_dollar : '$'.toNat < 128 := by decide

/-- The word characters behind the dollar sign are read up to their end. -/
theorem wordEnd_dollar (a s : List Char) :
    wordEnd (a ++ '$' :: s) (size a + 1) =
      .ok (size ((a ++ ['$']) ++ s.takeWhile isWordChar)) := by
  have h := wordEnd_append (a ++ ['$']) s
  rw [List.append_assoc, List.singleton_append, ← size_append] at h
  rwa [size_append a, size_singleton toNat_dollar] at h

theorem getElem?_octets_tagEnd_iff (a s : List Char) :
    (octets (a ++ '$' :: s))[size ((a ++ ['$']) ++ s.takeWhile isWordChar)]? = some '$' ↔
      (s.dropWhile isWordChar).head? = some '$' := by
  have h := getElem?_octets_size_eq_some_iff toNat_dollar
    ((a ++ ['$']) ++ s.takeWhile isWordChar) (s.dropWhile isWordChar)
  rwa [List.append_assoc _ (s.takeWhile _), List.takeWhile_append_dropWhile, List.append_assoc,
    List.singleton_append] at h

/-- A mark ends behind the dollar sign behind its tag. -/
theorem size_tagEnd {mark rest : List Char} (h : dollarMark? s = some (mark, rest))
    (a : List Char) : size ((a ++ ['$']) ++ s.takeWhile isWordChar) + 1 = size a + size mark := by
  have hmark : mark = '$' :: s.takeWhile isWordChar ++ ['$'] := by
    rw [dollarMark?] at h
    split at h
    · cases h
    · split at h
      · cases h
        rfl
      · cases h
  rw [hmark, List.cons_append, size_cons, size_append, size_append, size_append,
    size_singleton toNat_dollar]
  omega

/-- The mark of a body is read where the scanner finds it, and so is its end. -/
theorem bodyEnd?_append (a s : List Char) :
    bodyEnd? (a ++ '$' :: s) (size a) = .ok (if a.getLast?.any isWordChar then none
      else (dollarMark? s).map fun cut =>
        size a + size (cut.1 ++ (throughMark cut.1 cut.2).1)) := by
  rw [bodyEnd?, isBehindWord_append, ok_bind]
  cases a.getLast?.any isWordChar with
  | true => rfl
  | false =>
    have hclosed := getElem?_octets_tagEnd_iff a s
    have hdigit := any_next asciiOnly_isDigit toNat_dollar a s
    rw [if_neg Bool.false_ne_true, if_neg Bool.false_ne_true, wordEnd_dollar, ok_bind]
    cases hmark : dollarMark? s with
    | none =>
      rw [if_pos]
      · rfl
      · by_contra hboth
        obtain ⟨hsome, hnone⟩ := not_or.1 hboth
        rw [hdigit, Bool.not_eq_true] at hnone
        have hfound := isSome_dollarMark?_iff.2 ⟨hnone, hclosed.1 (not_not.1 hsome)⟩
        rw [hmark] at hfound
        cases hfound
    | some cut =>
      obtain ⟨mark, rest⟩ := cut
      obtain ⟨hnone, hdollar⟩ := isSome_dollarMark?_iff.1 (by rw [hmark]; rfl)
      rw [if_neg]
      · have hsize := size_tagEnd hmark a
        have htext : a ++ '$' :: s = a ++ (mark ++ rest) := by
          rw [eq_append_of_dollarMark? hmark]
        have hstop := markEnd_append mark (a ++ mark) rest
        rw [List.append_assoc, size_append] at hstop
        rw [hsize, htext, slice_append, ok_bind, hstop, ok_bind, Nat.add_assoc, ← size_append]
        rfl
      · rw [hdigit, hnone]
        exact not_or.2 ⟨not_not.2 (hclosed.2 hdollar), Bool.false_ne_true⟩

/-- An opening of two characters is found where the text has it. -/
theorem opening_iff {d e : Char} (hd : d.toNat < 128) (he : e.toNat < 128) (a : List Char)
    (c : Char) (s : List Char) : (lead c = d ∧ (octets (a ++ c :: s))[size a + 1]? = some e) ↔
      c = d ∧ s.head? = some e := by
  rw [lead_eq_iff hd]
  refine and_congr_right ?_
  rintro rfl
  exact getElem?_octets_next_eq_some_iff hd he a s

/-- The character and the next one say how the end of a span is looked for. -/
theorem spanEnd?_eq (a : List Char) (c : Char) (s : List Char) :
    spanEnd? (a ++ c :: s) (size a) =
      if c = '\'' ∨ c = '"' ∨ c = '\x60' then some <$> quoteEnd (a ++ c :: s) c (size a + 1)
      else if c = '-' ∧ s.head? = some '-' then some <$> lineEnd (a ++ c :: s) (size a)
      else if c = '/' ∧ s.head? = some '*' then
        some <$> markEnd (a ++ c :: s) ['*', '/'] (size a + 2)
      else if c = '$' then bodyEnd? (a ++ c :: s) (size a)
      else .ok none := by
  have hquote : (lead c = '\'' ∨ lead c = '"' ∨ lead c = '\x60') ↔ IsQuote c := by
    simp only [IsQuote, lead_eq_iff (show '\''.toNat < 128 by decide),
      lead_eq_iff (show '"'.toNat < 128 by decide), lead_eq_iff (show '\x60'.toNat < 128 by decide)]
  have hdash := opening_iff (d := '-') (e := '-') (by decide) (by decide) a c s
  have hstar := opening_iff (d := '/') (e := '*') (by decide) (by decide) a c s
  have hdollar := lead_eq_iff (c := c) toNat_dollar
  rw [spanEnd?, octet_append, ok_bind]
  by_cases h : c = '\'' ∨ c = '"' ∨ c = '\x60'
  · rw [if_pos (hquote.2 h), if_pos h, lead_eq_self (toNat_lt_of_isQuote h)]
  · rw [if_neg (mt hquote.1 h)]
    refine (if_congr hdash rfl (if_congr hstar rfl (if_congr hdollar rfl rfl))).trans ?_
    exact (if_neg h).symm

/-- The scanner by positions finds the span that the text is cut at. -/
theorem spanEnd?_append (a : List Char) (c : Char) (s : List Char) :
    spanEnd? (a ++ c :: s) (size a) =
      .ok ((enclosed? (a.getLast?.any isWordChar) c s).map fun found =>
        size a + size found.1.text) := by
  rw [spanEnd?_eq, enclosed?]
  by_cases hquote : c = '\'' ∨ c = '"' ∨ c = '\x60'
  · have hascii := toNat_lt_of_isQuote hquote
    have hstop := quoteEnd_append hascii (a ++ [c]) s
    rw [List.append_assoc, List.singleton_append, size_append, size_singleton hascii] at hstop
    rw [if_pos hquote, if_pos hquote, hstop, Nat.add_assoc]
    simp only [Option.map_some, Token.text, size_cons c (throughQuote c s).1, size_singleton hascii]
    rfl
  rw [if_neg hquote, if_neg hquote]
  by_cases hline : c = '-' ∧ s.head? = some '-'
  · rw [if_pos hline, if_pos hline, lineEnd_append]
    obtain ⟨rfl, -⟩ := hline
    rfl
  rw [if_neg hline, if_neg hline]
  by_cases hcomment : c = '/' ∧ s.head? = some '*'
  · rw [if_pos hcomment, if_pos hcomment]
    obtain ⟨rfl, hstar⟩ := hcomment
    obtain ⟨s, rfl⟩ := List.head?_eq_some_iff.1 hstar
    have hstop := markEnd_append ['*', '/'] (a ++ ['/', '*']) s
    rw [List.append_assoc, size_append a, Nat.add_assoc, ← size_append ['/', '*']] at hstop
    change some <$> markEnd (a ++ (['/', '*'] ++ s)) _ (size a + size ['/', '*']) = _
    rw [hstop]
    rfl
  rw [if_neg hcomment, if_neg hcomment]
  by_cases hdollar : c = '$'
  · subst hdollar
    rw [if_pos rfl, bodyEnd?_append]
    cases a.getLast?.any isWordChar with
    | true => rfl
    | false =>
      rw [if_neg Bool.false_ne_true, if_pos ⟨rfl, rfl⟩, Option.map_map]
      rfl
  · rw [if_neg hdollar, if_neg fun hboth => hdollar hboth.1]
    rfl

example : spanEnd? "é'it''s' t".toList 2 = .ok (some 9) := by decide +kernel

/-- Inside of a character no span begins. -/
theorem spanEnd?_inside {k : Nat} (hpos : 0 < k) (hk : k < size [c]) (a s : List Char) :
    spanEnd? (a ++ c :: s) (size a + k) = .ok none := by
  have hc := le_toNat_of_inside hpos hk
  obtain ⟨b, hb, hoctet⟩ := exists_octet hk a s
  have hbyte := le_toNat_of_mem_octets hc b hb
  have hne : ∀ d : Char, d.toNat < 128 → b ≠ d := by
    rintro d hd rfl
    omega
  rw [spanEnd?, hoctet, ok_bind, if_neg, if_neg, if_neg, if_neg (hne '$' (by decide))]
  · exact fun h => hne '/' (by decide) h.1
  · exact fun h => hne '-' (by decide) h.1
  · rintro (h | h | h)
    · exact hne _ (by decide) h
    · exact hne _ (by decide) h
    · exact hne _ (by decide) h

/-- At every position the scanner has an answer, and an end it finds is behind the position and
where a character begins or the text ends. -/
theorem exists_spanEnd? {i : Nat} (hi : i < size s) : ∃ found, spanEnd? s i = .ok found ∧
    ∀ j ∈ found, i < j ∧ ∃ before rest, s = before ++ rest ∧ j = size before := by
  obtain ⟨a, c, t, k, rfl, rfl, hk⟩ := exists_char hi
  rcases Nat.eq_zero_or_pos k with rfl | hpos
  · refine ⟨_, spanEnd?_append a c t, fun j hj => ?_⟩
    obtain ⟨⟨span, rest⟩, hfound, rfl⟩ := Option.map_eq_some_iff.1 hj
    obtain ⟨htext, hne⟩ := enclosed?_append hfound
    refine ⟨?_, a ++ span.text, rest, ?_, (size_append _ _).symm⟩
    · exact Nat.lt_add_of_pos_right (size_pos_of_ne_nil hne)
    · rw [← htext, List.append_assoc]
  · exact ⟨none, spanEnd?_inside hpos hk a t, fun j hj => nomatch hj⟩

/-! ### The forms -/

/-- Every quote doubled. -/
def doubled (quote : Char) (content : List Char) : List Char :=
  content.flatMap fun c => if c = quote then [quote, quote] else [c]

theorem doubled_cons (content : List Char) : doubled quote (c :: content) =
    (if c = quote then [quote, quote] else [c]) ++ doubled quote content := rfl

/-- Doubled quotes stand in pairs, and there is no other way to write pairs of quotes. -/
theorem paired_iff : Paired quote s ↔ ∃ content, s = doubled quote content := by
  constructor
  · intro h
    induction h with
    | nil => exact ⟨[], rfl⟩
    | @char c s hc h ih =>
      obtain ⟨content, rfl⟩ := ih
      exact ⟨c :: content, by rw [doubled_cons, if_neg hc, List.singleton_append]⟩
    | @pair s h ih =>
      obtain ⟨content, rfl⟩ := ih
      exact ⟨quote :: content, by rw [doubled_cons, if_pos rfl]; rfl⟩
  · rintro ⟨content, rfl⟩
    induction content with
    | nil => exact .nil
    | cons c content ih =>
      rw [doubled_cons]
      split
      · exact .pair ih
      · rename_i hc
        exact .char hc ih

/-- Behind the text `before`, the span that begins is `span`, and `rest` is what follows it: this is
where the text is cut, and this is the end that is found by positions. -/
def Measured (before span rest : List Char) : Prop :=
  (∃ c s t, span ++ rest = c :: s ∧
    enclosed? (before.getLast?.any isWordChar) c s = some (t, rest) ∧ t.text = span) ∧
  spanEnd? (before ++ (span ++ rest)) (size before) = .ok (some (size (before ++ span)))

theorem measured_of_isSpan {before span rest : List Char}
    (h : IsSpan (before.getLast?.any isWordChar) span rest) : Measured before span rest := by
  obtain ⟨c, s, t, htext, hfound, rfl⟩ := enclosed?_of_isSpan h
  refine ⟨⟨c, s, t, htext, hfound, rfl⟩, ?_⟩
  rw [htext, spanEnd?_append, hfound, size_append]
  rfl

/-- Quoted text that no quote closes. -/
theorem paired_of_not_closed
    (h : ∀ content rest, s = doubled quote content ++ quote :: rest → rest.head? = some quote) :
    Paired quote s := by
  have htext := throughQuote_append quote s
  rcases throughQuote_cases quote s with ⟨inside, hinside, hpaired, hrest⟩ | ⟨hpaired, hrest⟩
  · obtain ⟨content, rfl⟩ := paired_iff.1 hpaired
    rw [hinside, List.append_assoc] at htext
    exact absurd (h content _ htext.symm) hrest
  · rw [hrest, List.append_nil] at htext
    rwa [htext] at hpaired

/-- Each form of a span is measured exactly, behind every text and with every content: quoted text
through the quote that closes it, with the quotes inside doubled; a body through the next occurrence
of its mark; a comment through the next `*/`; a line up to its end.  What is never closed runs to
the end of the text. -/
theorem measured_spans (before content rest : List Char) :
    (∀ quote, IsQuote quote → rest.head? ≠ some quote →
      Measured before (quote :: (doubled quote content ++ [quote])) rest) ∧
    (∀ tag, IsTag tag → before.getLast?.any isWordChar = false →
      EndsAt (dollarMark tag) content →
        Measured before (dollarMark tag ++ (content ++ dollarMark tag)) rest) ∧
    (EndsAt ['*', '/'] content →
      Measured before ('/' :: '*' :: (content ++ ['*', '/'])) rest) ∧
    ('\n' ∉ content → (∀ c ∈ rest.head?, c = '\n') →
      Measured before ('-' :: '-' :: content) rest) ∧
    (∀ quote, IsQuote quote →
      (∀ inside after, content = doubled quote inside ++ quote :: after →
        after.head? = some quote) →
      Measured before (quote :: content) []) ∧
    (∀ tag, IsTag tag → before.getLast?.any isWordChar = false →
      ¬ dollarMark tag <:+: content → Measured before (dollarMark tag ++ content) []) ∧
    (¬ ['*', '/'] <:+: content → Measured before ('/' :: '*' :: content) []) := by
  refine ⟨fun quote hquote hrest => ?_, fun tag htag hbefore hcontent => ?_, fun hcontent => ?_,
    fun hcontent hrest => ?_, fun quote hquote hopen => ?_, fun tag htag hbefore hcontent => ?_,
    fun hcontent => ?_⟩ <;> refine measured_of_isSpan ?_
  · exact .quoted hquote (paired_iff.2 ⟨content, rfl⟩) hrest
  · exact .body hbefore htag hcontent
  · exact .comment hcontent
  · exact .lineComment hcontent hrest
  · exact .openQuoted hquote (paired_of_not_closed hopen)
  · exact .openBody hbefore htag hcontent
  · exact .openComment hcontent

end

end RecordLayer.Sql
