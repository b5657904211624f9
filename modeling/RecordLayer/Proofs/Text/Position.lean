import Mathlib.Data.List.Basic
import RecordLayer.Proofs.Text.Identifier
import RecordLayer.Text.Mark

/-!
# Positions in a text

A text in UTF-8 is a sequence of bytes, and one may go through it by positions among them.  Three
things can then go wrong (`Slip`): a byte is read where there is none, a piece is cut out of order,
outside of the text or inside a character, and a loop does not get further.  Reading a byte
(`octet`), cutting out a piece (`slice`) and going through a text (`loop`) are defined here so that
each of them reports its slip.

A character of ASCII is its own byte, and no byte of another character is of ASCII
(`octets_singleton`, `le_toNat_of_mem_octets`).  So a test that only characters of ASCII pass has
the same answer for a character and for its first byte (`apply_lead`), and fails inside of it.
-/

namespace RecordLayer.Text

/-! ### Bytes -/

/-- The bytes of a text in UTF-8, each as the character of its number. -/
def octets (s : List Char) : List Char :=
  s.flatMap fun c => (String.utf8EncodeChar c).map Char.ofUInt8

/-- The number of bytes of a text. -/
def size (s : List Char) : Nat :=
  (octets s).length

/-- The first byte of a character. -/
def lead (c : Char) : Char :=
  (octets [c]).headD c

/-- Only characters of ASCII pass the test. -/
def AsciiOnly (p : Char → Bool) : Prop :=
  ∀ c : Char, 128 ≤ c.toNat → p c = false

/-- What goes wrong where a text is read by positions. -/
inductive Slip where
  /-- There is no byte at the position. -/
  | noByte (i : Nat)
  /-- The positions are out of order or outside of the text, or inside a character. -/
  | badCut (i j : Nat)
  /-- The loop does not get further than the position. -/
  | noProgress (i : Nat)
deriving DecidableEq, Repr

/-- The byte at a position. -/
def octet (s : List Char) (i : Nat) : Except Slip Char :=
  match (octets s)[i]? with
  | some b => .ok b
  | none => .error (.noByte i)

/-- The text up to a position and from it on, unless the position is inside a character or outside
of the text. -/
def cutBehind? : Nat → List Char → Option (List Char × List Char)
  | 0, s => some ([], s)
  | _ + 1, [] => none
  | n + 1, c :: s =>
    if size [c] ≤ n + 1 then
      (cutBehind? (n + 1 - size [c]) s).map fun (before, after) => (c :: before, after)
    else none

/-- The text from one position to another, unless they are out of order or one of them is inside a
character or outside of the text. -/
def between? (s : List Char) (i j : Nat) : Option (List Char) :=
  if i ≤ j then
    (cutBehind? i s).bind fun (_, rest) => (cutBehind? (j - i) rest).map fun (piece, _) => piece
  else none

/-- The text from one position to another. -/
def slice (s : List Char) (i j : Nat) : Except Slip (List Char) :=
  match between? s i j with
  | some piece => .ok piece
  | none => .error (.badCut i j)

/-- The end of the word characters from a position on. -/
def wordEnd (s : List Char) (i : Nat) : Except Slip Nat :=
  if i ≤ size s then .ok (i + (((octets s).drop i).takeWhile isWordChar).length)
  else .error (.badCut i (size s))

/-- The position of the first occurrence of a mark. -/
def find? (mark s : List Char) : Option Nat :=
  (cutFirst? mark s).map fun (before, _) => size before

/-- The characters of a text that begins at a position, each with its own. -/
def charPositions (i : Nat) : List Char → List (Nat × Char)
  | [] => []
  | c :: s => (i, c) :: charPositions (i + size [c]) s

/-- What one round of a loop leads to: the next position, or the result. -/
inductive Turn (σ ρ : Type) where
  | on (next : Nat) (state : σ)
  | done (result : ρ)

/-- Goes from position to position up to the end of the text. -/
def loop {σ ρ : Type} (stop : Nat) (round : Nat → σ → Except Slip (Turn σ ρ))
    (finish : σ → Except Slip ρ) (i : Nat) (state : σ) : Except Slip ρ :=
  if i < stop then
    match round i state with
    | .error slip => .error slip
    | .ok (.done result) => .ok result
    | .ok (.on next state) =>
      if i < next then loop stop round finish next state else .error (.noProgress i)
  else finish state
termination_by stop - i

/-- Goes through a text, of which rounds and the end are told. -/
def scan {σ ρ : Type} (round : List Char → Nat → σ → Except Slip (Turn σ ρ))
    (finish : List Char → σ → Except Slip ρ) (s : List Char) (i : Nat) (state : σ) :
    Except Slip ρ :=
  loop (size s) (round s) (finish s) i state

@[simp] theorem ok_bind {α β : Type} (x : α) (f : α → Except Slip β) :
    (Except.ok x >>= f) = f x := rfl

variable {c : Char} {a s t u : List Char}

/-! ### The bytes of a character -/

theorem toNat_ofUInt8 (b : UInt8) : (Char.ofUInt8 b).toNat = b.toNat := rfl

theorem octets_singleton (h : c.toNat < 128) : octets [c] = [c] := by
  have hle : c.val.toNat ≤ 0x7f := Nat.le_of_lt_succ h
  have hbyte : Char.ofUInt8 (.ofNat c.val.toNat) = c := by
    rw [← Char.toNat_inj, toNat_ofUInt8, UInt8.toNat_ofNat']
    exact Nat.mod_eq_of_lt (Nat.lt_trans h (by decide))
  simp only [octets, List.flatMap_singleton, String.utf8EncodeChar, if_pos hle, List.map_cons,
    List.map_nil, hbyte]

theorem le_toNat_of_mem_octets (hc : 128 ≤ c.toNat) : ∀ b ∈ octets [c], 128 ≤ b.toNat := by
  have hlt : ¬ c.val.toNat ≤ 0x7f := Nat.not_le.2 hc
  have high : ∀ n, 128 ≤ n → n < 256 → 128 ≤ (UInt8.ofNat n).toNat := by
    intro n hn hn'
    rwa [UInt8.toNat_ofNat', Nat.mod_eq_of_lt hn']
  intro b hb
  simp only [octets, List.flatMap_singleton, String.utf8EncodeChar, if_neg hlt] at hb
  obtain ⟨byte, hbyte, rfl⟩ := List.mem_map.1 hb
  rw [toNat_ofUInt8]
  split at hbyte
  · simp only [List.mem_cons, List.not_mem_nil, or_false] at hbyte
    rcases hbyte with rfl | rfl <;> exact high _ (by omega) (by omega)
  · split at hbyte
    · simp only [List.mem_cons, List.not_mem_nil, or_false] at hbyte
      rcases hbyte with rfl | rfl | rfl <;> exact high _ (by omega) (by omega)
    · simp only [List.mem_cons, List.not_mem_nil, or_false] at hbyte
      rcases hbyte with rfl | rfl | rfl | rfl <;> exact high _ (by omega) (by omega)

theorem octets_ne_nil (c : Char) : octets [c] ≠ [] := by
  simp [octets, String.utf8EncodeChar_ne_nil]

theorem octets_append (s t : List Char) : octets (s ++ t) = octets s ++ octets t :=
  List.flatMap_append

theorem octets_cons (c : Char) (s : List Char) : octets (c :: s) = octets [c] ++ octets s :=
  octets_append [c] s

theorem octets_eq_self (h : ∀ c ∈ s, c.toNat < 128) : octets s = s := by
  induction s with
  | nil => rfl
  | cons c s ih =>
    obtain ⟨hc, h⟩ := List.forall_mem_cons.1 h
    rw [octets_cons, octets_singleton hc, ih h]
    rfl

@[simp] theorem size_nil : size [] = 0 := rfl

theorem size_append (s t : List Char) : size (s ++ t) = size s + size t := by
  rw [size, octets_append, List.length_append, size, size]

theorem size_cons (c : Char) (s : List Char) : size (c :: s) = size [c] + size s :=
  size_append [c] s

theorem size_pos (c : Char) : 0 < size [c] :=
  List.length_pos_iff.2 (octets_ne_nil c)

theorem size_pos_of_ne_nil (h : s ≠ []) : 0 < size s := by
  obtain ⟨c, s, rfl⟩ := List.exists_cons_of_ne_nil h
  rw [size_cons]
  exact Nat.add_pos_left (size_pos c) _

theorem size_singleton (h : c.toNat < 128) : size [c] = 1 := by
  rw [size, octets_singleton h, List.length_singleton]

/-- A character that has an inside is not of ASCII. -/
theorem le_toNat_of_inside {k : Nat} (hpos : 0 < k) (hk : k < size [c]) : 128 ≤ c.toNat := by
  by_contra hlt
  rw [size_singleton (Nat.not_le.1 hlt)] at hk
  omega

/-! ### First bytes -/

theorem lead_mem_octets (c : Char) : lead c ∈ octets [c] := by
  rw [lead]
  cases h : octets [c] with
  | nil => exact absurd h (octets_ne_nil c)
  | cons b rest => exact List.mem_cons_self

theorem lead_eq_self (h : c.toNat < 128) : lead c = c := by
  rw [lead, octets_singleton h, List.headD_cons]

theorem head?_octets (s : List Char) : (octets s).head? = s.head?.map lead := by
  cases s with
  | nil => rfl
  | cons c s =>
    rw [octets_cons, List.head?_append_of_ne_nil _ (octets_ne_nil c), List.head?_cons,
      Option.map_some, lead]
    cases h : octets [c] with
    | nil => exact absurd h (octets_ne_nil c)
    | cons b rest => rfl

theorem AsciiOnly.eq_false {p : Char → Bool} (hp : AsciiOnly p) (hc : 128 ≤ c.toNat) {b : Char}
    (hb : b ∈ octets [c]) : p b = false :=
  hp b (le_toNat_of_mem_octets hc b hb)

/-- A character and its first byte pass the same tests. -/
theorem apply_lead {p : Char → Bool} (hp : AsciiOnly p) (c : Char) : p (lead c) = p c := by
  rcases Nat.lt_or_ge c.toNat 128 with hc | hc
  · rw [lead_eq_self hc]
  · rw [hp.eq_false hc (lead_mem_octets c), hp c hc]

theorem asciiOnly_beq {d : Char} (hd : d.toNat < 128) : AsciiOnly (· == d) := by
  intro c hc
  rw [beq_eq_false_iff_ne]
  rintro rfl
  omega

theorem lead_eq_iff {d : Char} (hd : d.toNat < 128) : lead c = d ↔ c = d := by
  rw [← beq_iff_eq, ← beq_iff_eq (a := c)]
  exact iff_of_eq (congrArg (· = true) (apply_lead (asciiOnly_beq hd) c))

theorem asciiOnly_isDigit : AsciiOnly Char.isDigit := by
  intro c hc
  by_contra hdigit
  have hle := (Char.isDigit_iff_toNat.1 (Bool.not_eq_false _ ▸ hdigit)).2
  exact absurd hc (Nat.not_le.2 (Nat.lt_of_le_of_lt hle (by decide)))

theorem asciiOnly_isWordChar : AsciiOnly isWordChar := by
  intro c hc
  by_contra hword
  exact absurd hc (Nat.not_le.2 (toNat_lt_of_isWordChar (Bool.not_eq_false _ ▸ hword)))

theorem asciiOnly_isWordStart : AsciiOnly isWordStart := by
  intro c hc
  by_contra hword
  have hchar := isWordChar_of_isWordStart (Bool.not_eq_false _ ▸ hword)
  rw [asciiOnly_isWordChar c hc] at hchar
  cases hchar

theorem asciiOnly_isAsciiBlank : AsciiOnly isAsciiBlank := by
  intro c hc
  by_contra hblank
  simp only [isAsciiBlank, Bool.not_eq_false, Bool.or_eq_true, beq_iff_eq] at hblank
  rcases hblank with (((rfl | rfl) | rfl) | rfl) | rfl <;> exact absurd hc (by decide)

/-- The word characters that a text begins with are bytes of their own. -/
theorem takeWhile_octets (s : List Char) :
    (octets s).takeWhile isWordChar = s.takeWhile isWordChar := by
  induction s with
  | nil => rfl
  | cons c s ih =>
    cases hc : isWordChar c with
    | true =>
      rw [octets_cons, octets_singleton (toNat_lt_of_isWordChar hc), List.singleton_append,
        List.takeWhile_cons_of_pos hc, List.takeWhile_cons_of_pos hc, ih]
    | false =>
      have hhead := head?_octets (c :: s)
      rw [List.head?_cons, Option.map_some] at hhead
      obtain ⟨rest, hrest⟩ := List.head?_eq_some_iff.1 hhead
      have hlead : ¬ isWordChar (lead c) = true := by
        simp [apply_lead asciiOnly_isWordChar, hc]
      rw [hrest, List.takeWhile_cons_of_neg hlead, List.takeWhile_cons_of_neg (by simp [hc])]

/-! ### Reading at a position -/

theorem getElem?_octets_append (a s : List Char) (k : Nat) :
    (octets (a ++ s))[size a + k]? = (octets s)[k]? := by
  rw [octets_append, size, List.getElem?_append_right (Nat.le_add_right _ _),
    Nat.add_sub_cancel_left]

theorem octet_append (a : List Char) (c : Char) (s : List Char) :
    octet (a ++ c :: s) (size a) = .ok (lead c) := by
  have hget := getElem?_octets_append a (c :: s) 0
  rw [Nat.add_zero, ← List.head?_eq_getElem?, head?_octets] at hget
  rw [octet, hget]
  rfl

/-- The byte behind a character of ASCII is the first of the next character. -/
theorem getElem?_octets_next (hc : c.toNat < 128) (a s : List Char) :
    (octets (a ++ c :: s))[size a + 1]? = s.head?.map lead := by
  rw [getElem?_octets_append, octets_cons, octets_singleton hc, List.singleton_append,
    List.getElem?_cons_succ, ← List.head?_eq_getElem?, head?_octets]

/-- A position inside of a character has one of its bytes. -/
theorem exists_octet {k : Nat} (hk : k < size [c]) (a s : List Char) :
    ∃ b ∈ octets [c], octet (a ++ c :: s) (size a + k) = .ok b := by
  refine ⟨(octets [c])[k], List.getElem_mem _, ?_⟩
  rw [octet, getElem?_octets_append, octets_cons, List.getElem?_append_left hk,
    List.getElem?_eq_getElem hk]

/-- The byte before a position is the last one of the character that ends there. -/
theorem exists_octet_before (a : List Char) (c : Char) (s : List Char) :
    ∃ b, octet ((a ++ [c]) ++ s) (size (a ++ [c]) - 1) = .ok b ∧ isWordChar b = isWordChar c := by
  have hpos := size_pos c
  have hposition : size (a ++ [c]) - 1 = size a + (size [c] - 1) := by
    rw [size_append]
    omega
  obtain ⟨b, hb, hoctet⟩ := exists_octet (c := c) (Nat.sub_lt hpos Nat.one_pos) a s
  refine ⟨b, ?_, ?_⟩
  · rw [hposition, List.append_assoc]
    exact hoctet
  · rcases Nat.lt_or_ge c.toNat 128 with hc | hc
    · rw [octets_singleton hc, List.mem_singleton] at hb
      rw [hb]
    · rw [asciiOnly_isWordChar.eq_false hc hb, asciiOnly_isWordChar c hc]

theorem cutBehind?_size (a s : List Char) : cutBehind? (size a) (a ++ s) = some (a, s) := by
  induction a with
  | nil => cases s <;> rfl
  | cons c a ih =>
    have hpos := size_pos c
    obtain ⟨n, hn⟩ : ∃ n, size (c :: a) = n + 1 :=
      Nat.exists_eq_add_of_le' (size_cons c a ▸ Nat.le_add_right_of_le hpos)
    have hrest : n + 1 - size [c] = size a := by
      rw [← hn, size_cons c a, Nat.add_sub_cancel_left]
    have hle : size [c] ≤ n + 1 := by
      rw [← hn, size_cons c a]
      exact Nat.le_add_right _ _
    rw [hn, List.cons_append, cutBehind?, if_pos hle, hrest, ih]
    rfl

theorem slice_append (a u t : List Char) :
    slice (a ++ (u ++ t)) (size a) (size a + size u) = .ok u := by
  have hpiece : between? (a ++ (u ++ t)) (size a) (size a + size u) = some u := by
    rw [between?, if_pos (Nat.le_add_right _ _), cutBehind?_size, Nat.add_sub_cancel_left]
    change (cutBehind? (size u) (u ++ t)).map _ = some u
    rw [cutBehind?_size]
    rfl
  rw [slice, hpiece]

/-- The text from a position on. -/
theorem slice_append_size (a s : List Char) : slice (a ++ s) (size a) (size (a ++ s)) = .ok s := by
  have h := slice_append a s []
  rwa [List.append_nil, ← size_append] at h

/-- A character is behind all those before it. -/
theorem getElem?_charPositions (i : Nat) (s : List Char) (n : Nat) :
    (charPositions i s)[n]? = s[n]?.map fun c => (i + size (s.take n), c) := by
  induction s generalizing i n with
  | nil => rfl
  | cons c s ih =>
    cases n with
    | zero => rfl
    | succ n =>
      rw [charPositions, List.getElem?_cons_succ, List.getElem?_cons_succ, ih, List.take_succ_cons,
        size_cons c (s.take n), Nat.add_assoc]

theorem wordEnd_append (a s : List Char) :
    wordEnd (a ++ s) (size a) = .ok (size a + size (s.takeWhile isWordChar)) := by
  have hle : size a ≤ size (a ++ s) := by
    rw [size_append]
    exact Nat.le_add_right _ _
  have hdrop : (octets (a ++ s)).drop (size a) = octets s := by
    rw [octets_append, size, List.drop_left]
  have hword : size (s.takeWhile isWordChar) = (s.takeWhile isWordChar).length := by
    rw [size, octets_eq_self fun c hc => toNat_lt_of_isWordChar (List.mem_takeWhile_imp hc)]
  rw [wordEnd, if_pos hle, hdrop, takeWhile_octets, hword]

/-- Every position of a text is at or inside of one of its characters. -/
theorem exists_char {i : Nat} (hi : i < size s) :
    ∃ a c t k, s = a ++ c :: t ∧ i = size a + k ∧ k < size [c] := by
  induction s generalizing i with
  | nil => exact absurd hi (Nat.not_lt_zero i)
  | cons c s ih =>
    rcases Nat.lt_or_ge i (size [c]) with hlt | hge
    · exact ⟨[], c, s, i, rfl, (Nat.zero_add i).symm, hlt⟩
    · rw [size_cons] at hi
      obtain ⟨a, d, t, k, rfl, hi', hk⟩ := ih (i := i - size [c]) (by omega)
      refine ⟨c :: a, d, t, k, rfl, ?_, hk⟩
      rw [size_cons]
      omega

/-! ### Loops -/

section
variable {σ ρ : Type} {stop i j : Nat} {round : Nat → σ → Except Slip (Turn σ ρ)}
  {finish : σ → Except Slip ρ} {state state' : σ}

theorem loop_on (hi : i < stop) (hround : round i state = .ok (.on j state')) (hj : i < j) :
    loop stop round finish i state = loop stop round finish j state' := by
  rw [loop, if_pos hi, hround]
  exact if_pos hj

theorem loop_done {result : ρ} (hi : i < stop) (hround : round i state = .ok (.done result)) :
    loop stop round finish i state = .ok result := by
  rw [loop, if_pos hi, hround]

theorem loop_stop (hi : stop ≤ i) : loop stop round finish i state = finish state := by
  rw [loop, if_neg (Nat.not_lt.2 hi)]

/-- Rounds that get one byte further each, and leave the state as it is. -/
theorem loop_steps (n : Nat) (hn : i + n ≤ stop)
    (hround : ∀ k < n, round (i + k) state = .ok (.on (i + k + 1) state)) :
    loop stop round finish i state = loop stop round finish (i + n) state := by
  induction n with
  | zero => rfl
  | succ n ih =>
    rw [ih (by omega) fun k hk => hround k (Nat.lt_succ_of_lt hk)]
    exact loop_on hn (hround n (Nat.lt_succ_self n)) (Nat.lt_succ_self _)

end

section
variable {σ ρ : Type} {round : List Char → Nat → σ → Except Slip (Turn σ ρ)}
  {finish : List Char → σ → Except Slip ρ} {state state' : σ}

theorem scan_nil : scan round finish a (size a) state = finish a state :=
  loop_stop (Nat.le_refl _)

/-- A round at the head of a piece that gets behind it. -/
theorem scan_on (hu : u ≠ [])
    (hround : round (a ++ (u ++ s)) (size a) state = .ok (.on (size (a ++ u)) state')) :
    scan round finish (a ++ (u ++ s)) (size a) state =
      scan round finish ((a ++ u) ++ s) (size (a ++ u)) state' := by
  have hpos := size_pos_of_ne_nil hu
  have hlt : size a < size (a ++ u) := by
    rw [size_append]
    omega
  have hstop : size a < size (a ++ (u ++ s)) := by
    rw [← List.append_assoc, size_append (a ++ u)]
    omega
  rw [scan, loop_on hstop hround hlt, List.append_assoc, scan]

theorem scan_done {result : ρ} (hs : s ≠ [])
    (hround : round (a ++ s) (size a) state = .ok (.done result)) :
    scan round finish (a ++ s) (size a) state = .ok result := by
  have hpos := size_pos_of_ne_nil hs
  refine loop_done ?_ hround
  rw [size_append]
  omega

/-- Rounds that take a character byte by byte, of which only the first one changes the state. -/
theorem scan_char
    (hfirst : round (a ++ c :: s) (size a) state = .ok (.on (size a + 1) state'))
    (hinside : ∀ k, 0 < k → k < size [c] →
      round (a ++ c :: s) (size a + k) state' = .ok (.on (size a + k + 1) state')) :
    scan round finish (a ++ c :: s) (size a) state =
      scan round finish ((a ++ [c]) ++ s) (size (a ++ [c])) state' := by
  have hpos := size_pos c
  have hstop : size (a ++ c :: s) = size a + size [c] + size s := by
    rw [size_append, size_cons c s, Nat.add_assoc]
  have hbytes : loop (size (a ++ c :: s)) (round (a ++ c :: s)) (finish (a ++ c :: s))
      (size a + 1) state' = loop (size (a ++ c :: s)) (round (a ++ c :: s))
        (finish (a ++ c :: s)) (size a + 1 + (size [c] - 1)) state' := by
    refine loop_steps (size [c] - 1) (by omega) fun k hk => ?_
    rw [Nat.add_assoc, Nat.add_comm 1 k]
    exact hinside (k + 1) (Nat.succ_pos k) (by omega)
  have hend : size a + 1 + (size [c] - 1) = size (a ++ [c]) := by
    rw [size_append]
    omega
  rw [scan, loop_on (by omega) hfirst (Nat.lt_succ_self _), hbytes, hend, scan, List.append_assoc,
    List.singleton_append]

end

end RecordLayer.Text
