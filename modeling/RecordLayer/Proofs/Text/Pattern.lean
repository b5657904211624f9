import Mathlib.Data.List.Flatten
import RecordLayer.Text.Pattern

/-!
# Texts that match a pattern

What a pattern says of a text is read off the pattern (`Matches`): the parts of a sequence stand one
after another, and a repetition is some pieces put together.  Matching character by character
accepts exactly these texts (`accepts_iff`), since what follows a character is what the pattern
leaves to follow it (`matches_after`).  Sets of characters that are repeated describe the texts of
their characters (`matches_oneOrMore_one`, `matches_upTo_one`).
-/

namespace RecordLayer.Text

theorem CharSet.has_append_iff {set other : CharSet} {c : Char} :
    CharSet.has (set ++ other) c = true ↔ set.has c = true ∨ other.has c = true := by
  rw [has, List.any_append, Bool.or_eq_true, has, has]

theorem CharSet.has_ofText_iff {s : String} {c : Char} :
    (CharSet.ofText s).has c = true ↔ c ∈ s.toList := by
  rw [has, ofText, List.any_map, List.any_eq_true]
  constructor
  · rintro ⟨d, hd, hsame⟩
    have hcd : d ≤ c ∧ c ≤ d := by simpa using hsame
    rwa [Char.le_antisymm hcd.2 hcd.1]
  · intro hc
    exact ⟨c, hc, by simp⟩

namespace Pattern
variable {p q : Pattern} {set : CharSet} {c : Char} {s : List Char} {n : Nat}

/-- The text is as the pattern says. -/
def Matches : Pattern → List Char → Prop
  | never,      _ => False
  | empty,      s => s = []
  | one set,    s => ∃ c, set.has c = true ∧ s = [c]
  | seq p q,    s => ∃ t u, s = t ++ u ∧ p.Matches t ∧ q.Matches u
  | either p q, s => p.Matches s ∨ q.Matches s
  | upTo n p,   s => ∃ pieces : List (List Char),
      pieces.length ≤ n ∧ s = pieces.flatten ∧ ∀ t ∈ pieces, p.Matches t
  | many p,     s => ∃ pieces : List (List Char), s = pieces.flatten ∧ ∀ t ∈ pieces, p.Matches t

/-! ### Matching by characters -/

theorem matchesEmpty_iff (p : Pattern) : p.matchesEmpty = true ↔ p.Matches [] := by
  induction p with
  | never => simp [matchesEmpty, Matches]
  | empty => simp [matchesEmpty, Matches]
  | one set => simp [matchesEmpty, Matches]
  | seq p q ihp ihq =>
    rw [matchesEmpty, Bool.and_eq_true, ihp, ihq]
    constructor
    · rintro ⟨hp, hq⟩
      exact ⟨[], [], rfl, hp, hq⟩
    · rintro ⟨t, u, hs, hp, hq⟩
      obtain ⟨rfl, rfl⟩ := List.append_eq_nil_iff.1 hs.symm
      exact ⟨hp, hq⟩
  | either p q ihp ihq => rw [matchesEmpty, Bool.or_eq_true, ihp, ihq, Matches]
  | upTo n p _ => exact iff_of_true rfl ⟨[], Nat.zero_le n, rfl, by simp⟩
  | many p _ => exact iff_of_true rfl ⟨[], rfl, by simp⟩

theorem matches_followedBy (p q : Pattern) (s : List Char) :
    (p.followedBy q).Matches s ↔ ∃ t u, s = t ++ u ∧ p.Matches t ∧ q.Matches u := by
  cases p with
  | never => simp [followedBy, Matches]
  | empty =>
    constructor
    · intro h
      exact ⟨[], s, rfl, rfl, h⟩
    · rintro ⟨t, u, rfl, rfl, h⟩
      exact h
  | _ => exact Iff.rfl

theorem matches_orElse (p q : Pattern) (s : List Char) :
    (p.orElse q).Matches s ↔ p.Matches s ∨ q.Matches s := by
  unfold orElse
  split <;> simp [Matches]

/-- A part of a sequence takes the first character, or is empty and leaves it to the next. -/
theorem matches_seq_cons : (seq p q).Matches (c :: s) ↔
    (∃ t u, s = t ++ u ∧ p.Matches (c :: t) ∧ q.Matches u) ∨
      p.Matches [] ∧ q.Matches (c :: s) := by
  constructor
  · rintro ⟨t, u, hs, hp, hq⟩
    cases t with
    | nil =>
      obtain rfl : c :: s = u := hs
      exact .inr ⟨hp, hq⟩
    | cons d t =>
      obtain ⟨rfl, rfl⟩ := List.cons.inj hs
      exact .inl ⟨t, u, rfl, hp, hq⟩
  · rintro (⟨t, u, rfl, hp, hq⟩ | ⟨hp, hq⟩)
    · exact ⟨c :: t, u, rfl, hp, hq⟩
    · exact ⟨[], c :: s, rfl, hp, hq⟩

/-- The first piece that is not empty takes the first character. -/
theorem exists_piece_of_cons {pieces : List (List Char)} (h : c :: s = pieces.flatten) :
    ∃ t rest, s = t ++ rest.flatten ∧ c :: t ∈ pieces ∧ rest ⊆ pieces ∧
      rest.length < pieces.length := by
  induction pieces with
  | nil => cases h
  | cons piece pieces ih =>
    cases piece with
    | nil =>
      obtain ⟨t, rest, hs, ht, hrest, hlength⟩ := ih h
      exact ⟨t, rest, hs, List.mem_cons_of_mem _ ht, List.subset_cons_of_subset _ hrest,
        Nat.lt_succ_of_lt hlength⟩
    | cons d t =>
      obtain ⟨rfl, rfl⟩ := List.cons.inj h
      exact ⟨t, pieces, rfl, List.mem_cons_self, List.subset_cons_self _ _, Nat.lt_succ_self _⟩

theorem matches_upTo_cons : (upTo n p).Matches (c :: s) ↔
    ∃ m, n = m + 1 ∧ ∃ t u, s = t ++ u ∧ p.Matches (c :: t) ∧ (upTo m p).Matches u := by
  constructor
  · rintro ⟨pieces, hn, hs, hp⟩
    obtain ⟨t, rest, rfl, ht, hrest, hlength⟩ := exists_piece_of_cons hs
    refine ⟨n - 1, by omega, t, rest.flatten, rfl, hp _ ht, rest, by omega, rfl, ?_⟩
    exact fun u hu => hp u (hrest hu)
  · rintro ⟨m, rfl, t, u, rfl, ht, pieces, hm, rfl, hp⟩
    exact ⟨(c :: t) :: pieces, Nat.succ_le_succ hm, rfl, List.forall_mem_cons.2 ⟨ht, hp⟩⟩

theorem matches_many_cons : (many p).Matches (c :: s) ↔
    ∃ t u, s = t ++ u ∧ p.Matches (c :: t) ∧ (many p).Matches u := by
  constructor
  · rintro ⟨pieces, hs, hp⟩
    obtain ⟨t, rest, rfl, ht, hrest, -⟩ := exists_piece_of_cons hs
    exact ⟨t, rest.flatten, rfl, hp _ ht, rest, rfl, fun u hu => hp u (hrest hu)⟩
  · rintro ⟨t, u, rfl, ht, pieces, rfl, hp⟩
    exact ⟨(c :: t) :: pieces, rfl, List.forall_mem_cons.2 ⟨ht, hp⟩⟩

/-- What a pattern leaves to follow a character is what may follow it. -/
theorem matches_after (p : Pattern) (c : Char) (s : List Char) :
    (p.after c).Matches s ↔ p.Matches (c :: s) := by
  -- Behind the first part of a sequence or a repetition the text is another one.
  induction p generalizing s with
  | never => exact Iff.rfl
  | empty => exact ⟨False.elim, fun h => by cases h⟩
  | one set =>
    rw [after]
    split
    · rename_i hc
      constructor
      · rintro rfl
        exact ⟨c, hc, rfl⟩
      · rintro ⟨d, -, hs⟩
        exact (List.cons.inj hs).2
    · rename_i hc
      refine ⟨False.elim, ?_⟩
      rintro ⟨d, hd, hs⟩
      exact hc ((List.cons.inj hs).1 ▸ hd)
  | seq p q ihp ihq =>
    rw [matches_seq_cons, ← matchesEmpty_iff, after]
    split
    · rename_i hempty
      simp only [matches_orElse, matches_followedBy, ihp, ihq, hempty, true_and]
    · rename_i hempty
      simp only [matches_followedBy, ihp, hempty, Bool.false_eq_true, false_and, or_false]
  | either p q ihp ihq => rw [after, matches_orElse, ihp, ihq, Matches]
  | upTo n p ih =>
    rw [matches_upTo_cons]
    cases n with
    | zero => exact ⟨False.elim, fun ⟨_, h, _⟩ => by cases h⟩
    | succ n => simp [after, matches_followedBy, ih]
  | many p ih => simp only [after, matches_followedBy, matches_many_cons, ih]

/-- **A text is accepted if it matches.** -/
theorem accepts_iff (p : Pattern) (s : List Char) : p.accepts s = true ↔ p.Matches s := by
  induction s generalizing p with
  | nil => exact matchesEmpty_iff p
  | cons c s ih => rw [accepts, ih, matches_after]

/-! ### Repetitions -/

theorem matches_mark (c : Char) (s : List Char) : (mark c).Matches s ↔ s = [c] := by
  constructor
  · rintro ⟨d, hd, rfl⟩
    have hcd : c ≤ d ∧ d ≤ c := by simpa [CharSet.has] using hd
    rw [Char.le_antisymm hcd.1 hcd.2]
  · rintro rfl
    exact ⟨c, by simp [CharSet.has], rfl⟩

theorem matches_optional : p.optional.Matches s ↔ s = [] ∨ p.Matches s := by
  constructor
  · rintro ⟨pieces, hlength, rfl, hp⟩
    match pieces with
    | [] => exact .inl rfl
    | [piece] =>
      rw [List.flatten_singleton]
      exact .inr (hp piece (List.mem_singleton_self piece))
  · rintro (rfl | hp)
    · exact ⟨[], Nat.zero_le 1, rfl, by simp⟩
    · exact ⟨[s], Nat.le_refl 1, by simp, by simpa using hp⟩

theorem matches_oneOrMore : p.oneOrMore.Matches s ↔ ∃ pieces : List (List Char),
    pieces ≠ [] ∧ s = pieces.flatten ∧ ∀ t ∈ pieces, p.Matches t := by
  constructor
  · rintro ⟨t, u, rfl, ht, pieces, rfl, hp⟩
    exact ⟨t :: pieces, List.cons_ne_nil _ _, rfl, List.forall_mem_cons.2 ⟨ht, hp⟩⟩
  · rintro ⟨pieces, hne, rfl, hp⟩
    cases pieces with
    | nil => exact absurd rfl hne
    | cons t pieces =>
      obtain ⟨ht, hrest⟩ := List.forall_mem_cons.1 hp
      exact ⟨t, pieces.flatten, rfl, ht, pieces, rfl, hrest⟩

/-- Pieces of one character each are as many as their characters. -/
theorem flatten_of_one {pieces : List (List Char)} (h : ∀ t ∈ pieces, (one set).Matches t) :
    pieces.flatten.length = pieces.length ∧ ∀ c ∈ pieces.flatten, set.has c = true := by
  induction pieces with
  | nil => exact ⟨rfl, by simp⟩
  | cons t pieces ih =>
    obtain ⟨⟨c, hc, rfl⟩, hrest⟩ := List.forall_mem_cons.1 h
    obtain ⟨hlength, hset⟩ := ih hrest
    exact ⟨congrArg (· + 1) hlength, List.forall_mem_cons.2 ⟨hc, hset⟩⟩

theorem exists_pieces_of_one_iff (size : Nat → Prop) :
    (∃ pieces : List (List Char), size pieces.length ∧ s = pieces.flatten ∧
      ∀ t ∈ pieces, (one set).Matches t) ↔ size s.length ∧ ∀ c ∈ s, set.has c = true := by
  constructor
  · rintro ⟨pieces, hsize, rfl, hp⟩
    obtain ⟨hlength, hset⟩ := flatten_of_one hp
    exact ⟨hlength ▸ hsize, hset⟩
  · rintro ⟨hsize, hs⟩
    refine ⟨s.map fun c => [c], by rwa [List.length_map], ?_, ?_⟩
    · rw [← List.flatMap_def, List.flatMap_singleton']
    · intro t ht
      obtain ⟨c, hc, rfl⟩ := List.mem_map.1 ht
      exact ⟨c, hs c hc, rfl⟩

theorem matches_upTo_one : (upTo n (one set)).Matches s ↔
    s.length ≤ n ∧ ∀ c ∈ s, set.has c = true :=
  exists_pieces_of_one_iff (· ≤ n)

theorem matches_oneOrMore_one : (one set).oneOrMore.Matches s ↔
    s ≠ [] ∧ ∀ c ∈ s, set.has c = true := by
  simp only [matches_oneOrMore, ← List.length_pos_iff]
  exact exists_pieces_of_one_iff (0 < ·)

end Pattern

end RecordLayer.Text
