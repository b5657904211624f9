import RecordLayer.Proofs.Rule.Composition
import RecordLayer.Proofs.Text.Pattern

/-!
# Addresses

The email rule passes exactly the texts that are addresses (`check_email`): a local part of at least
one character, an `@`, and at least two labels with points between them (`IsAddress`).  The pattern
asks for a label's first and last character one by one and leaves room for 61 in between; so it
matches the texts of 1 to 63 label characters that have no hyphen at either end
(`matches_label_iff`).
-/

namespace RecordLayer

namespace Email
open Text

/-- A character of a local part. -/
def IsLocalChar (c : Char) : Prop :=
  c.isAlphanum = true ∨ c ∈ ".!#$%&'*+/=?^_\x60\x7b|\x7d~-".toList

/-- A letter, a digit or a hyphen. -/
def IsLabelChar (c : Char) : Prop :=
  c.isAlphanum = true ∨ c = '-'

/-- One to 63 letters, digits and hyphens, with no hyphen at either end. -/
structure IsLabel (s : List Char) : Prop where
  ne_nil : s ≠ []
  length_le : s.length ≤ 63
  chars : ∀ c ∈ s, IsLabelChar c
  first : s.head? ≠ some '-'
  last : s.getLast? ≠ some '-'

/-- A local part, an `@`, and two or more labels with points between them. -/
def IsAddress (s : List Char) : Prop :=
  ∃ (name : List Char) (labels : List (List Char)), s = name ++ '@' :: joined ['.'] labels ∧
    name ≠ [] ∧ (∀ c ∈ name, IsLocalChar c) ∧ 2 ≤ labels.length ∧ ∀ l ∈ labels, IsLabel l

variable {c : Char} {s : List Char}

/-! ### Characters -/

theorem has_alphanumerics_iff : alphanumerics.has c = true ↔ c.isAlphanum = true := by
  have hranges : alphanumerics.has c = (('A' ≤ c && c ≤ 'Z') ||
      (('a' ≤ c && c ≤ 'z') || (('0' ≤ c && c ≤ '9') || false))) := rfl
  have hkinds : c.isAlphanum = (decide ('A' ≤ c ∧ c ≤ 'Z') || ('a' ≤ c && c ≤ 'z') ||
      ('0' ≤ c && c ≤ '9')) := rfl
  rw [hranges, hkinds, Bool.decide_and, Bool.or_false, Bool.or_assoc]

theorem has_localChars_iff : localChars.has c = true ↔ IsLocalChar c := by
  rw [localChars, CharSet.has_append_iff, has_alphanumerics_iff, CharSet.has_ofText_iff,
    IsLocalChar]

theorem has_labelChars_iff : labelChars.has c = true ↔ IsLabelChar c := by
  rw [labelChars, CharSet.has_append_iff, has_alphanumerics_iff, CharSet.has_ofText_iff,
    IsLabelChar]
  simp

theorem not_isAlphanum_hyphen : ¬ ('-').isAlphanum = true := by decide

/-! ### Labels -/

/-- Behind its first character a label is at its end, or it has another last one. -/
theorem matches_label : label.Matches s ↔ ∃ a rest, s = a :: rest ∧ a.isAlphanum = true ∧
    (rest = [] ∨ ∃ inner z, rest = inner ++ [z] ∧ inner.length ≤ 61 ∧
      (∀ c ∈ inner, IsLabelChar c) ∧ z.isAlphanum = true) := by
  constructor
  · rintro ⟨_, rest, rfl, ⟨a, ha, rfl⟩, hrest⟩
    refine ⟨a, rest, rfl, has_alphanumerics_iff.1 ha, ?_⟩
    rcases Pattern.matches_optional.1 hrest with rfl | ⟨inner, _, rfl, hinner, z, hz, rfl⟩
    · exact .inl rfl
    · obtain ⟨hlength, hchars⟩ := Pattern.matches_upTo_one.1 hinner
      exact .inr ⟨inner, z, rfl, hlength, fun c hc => has_labelChars_iff.1 (hchars c hc),
        has_alphanumerics_iff.1 hz⟩
  · rintro ⟨a, rest, rfl, ha, hrest⟩
    refine ⟨[a], rest, rfl, ⟨a, has_alphanumerics_iff.2 ha, rfl⟩, Pattern.matches_optional.2 ?_⟩
    rcases hrest with rfl | ⟨inner, z, rfl, hlength, hchars, hz⟩
    · exact .inl rfl
    · exact .inr ⟨inner, [z], rfl, Pattern.matches_upTo_one.2
        ⟨hlength, fun c hc => has_labelChars_iff.2 (hchars c hc)⟩, z,
        has_alphanumerics_iff.2 hz, rfl⟩

theorem matches_label_iff : label.Matches s ↔ IsLabel s := by
  rw [matches_label]
  constructor
  · rintro ⟨a, rest, rfl, ha, hrest⟩
    have hfirst : a ≠ '-' := fun h => not_isAlphanum_hyphen (h ▸ ha)
    rcases hrest with rfl | ⟨inner, z, rfl, hlength, hchars, hz⟩
    · exact ⟨by simp, by simp, by simpa using .inl ha, by simpa using hfirst, by simpa using hfirst⟩
    · have hlast : z ≠ '-' := fun h => not_isAlphanum_hyphen (h ▸ hz)
      refine ⟨by simp, by simp; omega, ?_, by simpa using hfirst, ?_⟩
      · intro c hc
        simp only [List.mem_cons, List.mem_append, List.not_mem_nil, or_false] at hc
        rcases hc with rfl | hc | rfl
        · exact .inl ha
        · exact hchars c hc
        · exact .inl hz
      · rw [← List.cons_append, List.getLast?_concat]
        simpa using hlast
  · rintro ⟨hne, hlength, hchars, hfirst, hlast⟩
    cases s with
    | nil => exact absurd rfl hne
    | cons a rest =>
      have ha : a ≠ '-' := by simpa using hfirst
      -- A label of one character begins and ends with it; any other is cut at its last one too.
      refine ⟨a, rest, rfl, (hchars a List.mem_cons_self).resolve_right ha, ?_⟩
      rcases List.eq_nil_or_concat rest with rfl | ⟨inner, z, rfl⟩
      · exact .inl rfl
      · rw [List.concat_eq_append] at hchars hlength hlast ⊢
        rw [← List.cons_append, List.getLast?_concat] at hlast
        have hz : z ≠ '-' := by simpa using hlast
        simp only [List.length_cons, List.length_append, List.length_nil] at hlength
        exact .inr ⟨inner, z, rfl, by omega, fun c hc => hchars c (by simp [hc]),
          (hchars z (by simp)).resolve_right hz⟩

/-! ### Addresses -/

/-- Pieces with a mark between them are the first one, and the others with the mark before each. -/
theorem joined_eq_append_flatten (mark piece : List Char) (rest : List (List Char)) :
    joined mark (piece :: rest) = piece ++ (rest.map (mark ++ ·)).flatten := by
  induction rest generalizing piece with
  | nil => simp [joined]
  | cons next rest ih => simp [joined, ih]

/-- Labels with a point before each. -/
theorem matches_labels : (Pattern.oneOrMore (.seq (.mark '.') label)).Matches s ↔
    ∃ labels : List (List Char), labels ≠ [] ∧ s = (labels.map (['.'] ++ ·)).flatten ∧
      ∀ l ∈ labels, IsLabel l := by
  rw [Pattern.matches_oneOrMore]
  constructor
  · rintro ⟨pieces, hne, rfl, hpieces⟩
    have hlabel : ∀ piece ∈ pieces, ['.'] ++ piece.tail = piece ∧ IsLabel piece.tail := by
      intro piece hpiece
      obtain ⟨point, l, rfl, hpoint, hl⟩ := hpieces piece hpiece
      obtain rfl := (Pattern.matches_mark _ _).1 hpoint
      exact ⟨rfl, matches_label_iff.1 hl⟩
    refine ⟨pieces.map List.tail, by simpa using hne, ?_, ?_⟩
    · have hback : (pieces.map List.tail).map (['.'] ++ ·) = pieces := by
        rw [List.map_map]
        exact (List.map_congr_left fun piece hpiece => (hlabel piece hpiece).1).trans
          (List.map_id pieces)
      rw [hback]
    · intro l hl
      obtain ⟨piece, hpiece, rfl⟩ := List.mem_map.1 hl
      exact (hlabel piece hpiece).2
  · rintro ⟨labels, hne, rfl, hlabels⟩
    refine ⟨labels.map (['.'] ++ ·), by simpa using hne, rfl, ?_⟩
    intro piece hpiece
    obtain ⟨l, hl, rfl⟩ := List.mem_map.1 hpiece
    exact ⟨['.'], l, rfl, (Pattern.matches_mark _ _).2 rfl, matches_label_iff.2 (hlabels l hl)⟩

/-- **The pattern matches the addresses.** -/
theorem matches_address_iff : address.Matches s ↔ IsAddress s := by
  constructor
  · rintro ⟨name, _, rfl, hname, _, _, rfl, hat, first, _, rfl, hfirst, hrest⟩
    obtain ⟨hne, hchars⟩ := Pattern.matches_oneOrMore_one.1 hname
    obtain rfl := (Pattern.matches_mark _ _).1 hat
    obtain ⟨labels, hlabels, rfl, hlabel⟩ := matches_labels.1 hrest
    refine ⟨name, first :: labels, ?_, hne, fun c hc => has_localChars_iff.1 (hchars c hc), ?_,
      List.forall_mem_cons.2 ⟨matches_label_iff.1 hfirst, hlabel⟩⟩
    · rw [joined_eq_append_flatten]
      rfl
    · exact Nat.succ_le_succ (List.length_pos_iff.2 hlabels)
  · rintro ⟨name, labels, rfl, hne, hchars, hlength, hlabels⟩
    match labels with
    | first :: second :: rest =>
      obtain ⟨hfirst, hrest⟩ := List.forall_mem_cons.1 hlabels
      rw [joined_eq_append_flatten]
      refine ⟨name, _, rfl, Pattern.matches_oneOrMore_one.2
        ⟨hne, fun c hc => has_localChars_iff.2 (hchars c hc)⟩, ['@'], _, rfl,
        (Pattern.matches_mark _ _).2 rfl, first, _, rfl, matches_label_iff.2 hfirst, ?_⟩
      exact matches_labels.2 ⟨second :: rest, List.cons_ne_nil _ _, rfl, hrest⟩

theorem isAddress_iff : isAddress s = true ↔ IsAddress s :=
  (Pattern.accepts_iff address s).trans matches_address_iff

end Email

namespace Rulebook

theorem judge_email (v : Value) : builtin.judge v ⟨"email", none⟩ = .broken ↔
    ¬ (v = .null ∨ ∃ s, v = .text s ∧ Email.IsAddress s.toList) := by
  have hget : builtin.get? "email" = some email := rfl
  rw [judge, hget]
  cases v with
  | null => simp [Value.isNull]
  | text s =>
    cases haddress : Email.isAddress s.toList <;>
      simp [Value.isNull, email, Value.asText?, ← Email.isAddress_iff, haddress]
  | _ => simp [Value.isNull, email, Value.asText?]

/-- **The email rule passes addresses** and null.  Every other value, text or not, breaks it, and is
reported by the rule's name. -/
theorem check_email (v : Value) :
    (builtin.check "email" v = none ↔
      v = .null ∨ ∃ s, v = .text s ∧ Email.IsAddress s.toList) ∧
      (builtin.check "email" v = none ∨ builtin.check "email" v = some "email") := by
  have hwritten : RuleItem.Written ⟨"email", none⟩ "email" :=
    .name (n := "email") (by decide) (by decide) fun h => absurd (h 'e' (by decide)) (by decide)
  rw [check_of_written hwritten]
  split
  · rename_i hbroken
    exact ⟨iff_of_false (Option.some_ne_none _) ((judge_email v).1 hbroken), .inr rfl⟩
  · rename_i hkept
    exact ⟨iff_of_true rfl (not_not.1 (mt (judge_email v).2 hkept)), .inl rfl⟩

/-- A label of 63 characters is the longest, and a line break is no part of an address. -/
example :
    let address (length : Nat) : String :=
      "a@" ++ .ofList (List.replicate length 'b') ++ ".c"
    builtin.check "email" (.text (address 63)) = none ∧
      builtin.check "email" (.text (address 64)) = some "email" ∧
      builtin.check "email" (.text (address 1 ++ "\n")) = some "email" := by
  decide +kernel

end Rulebook

end RecordLayer
