import RecordLayer.Migration.FileName
import RecordLayer.Proofs.Text.Mark
import RecordLayer.Proofs.Text.Numeral

/-!
# Migrations — Names of files

A migration file's name is spelled as a number in digits, a name of its own and a direction, with
points between them and `.sql` behind them (`FileName.IsSpelled`).  The name in the middle may hold
points, digits or a direction itself, but digits and directions hold no points.  So the number ends
at the first point and the direction begins behind the last one, and what is spelled can be read in
one way only (`FileName.eq_of_written_eq`).  Reading takes all names that are spelled so and no
others, as long as the number fits in 64 bits with sign (`FileName.ofText?_exact`).
-/

namespace RecordLayer

namespace Text

/-- Digits of ASCII that stand for a number, however many zeros they begin with. -/
structure IsNumeral (digits : List Char) (n : Nat) : Prop where
  nonempty : digits ≠ []
  isDigit : ∀ c ∈ digits, c.isDigit = true
  value : Nat.ofDigitChars 10 digits 0 = n

namespace IsNumeral
variable {digits : List Char} {n : Nat}

theorem paddedDigits (width n : Nat) : IsNumeral (paddedDigits width n) n where
  nonempty := paddedDigits_ne_nil width n
  isDigit _ := isDigit_paddedDigits
  value := by rw [← numberOf_eq_ofDigitChars, numberOf_paddedDigits]

theorem not_mem (h : IsNumeral digits n) {c : Char} (hc : c.isDigit = false) : c ∉ digits :=
  fun hmem => ne_true_of_eq_false hc (h.isDigit c hmem)

end IsNumeral

theorem natural?_eq_some_iff {s : List Char} {n : Nat} : natural? s = some n ↔ IsNumeral s n := by
  have hdigits : (s.isEmpty || !s.all Char.isDigit) = false ↔
      s ≠ [] ∧ ∀ c ∈ s, c.isDigit = true := by
    rw [Bool.or_eq_false_iff, Bool.not_eq_false', List.all_eq_true, List.isEmpty_eq_false_iff]
  rw [natural?]
  split
  · rename_i hnot
    refine iff_of_false (fun h => by cases h) fun h => ?_
    rw [hdigits.2 ⟨h.nonempty, h.isDigit⟩] at hnot
    cases hnot
  · rename_i hnot
    obtain ⟨hnonempty, hall⟩ := hdigits.1 (Bool.not_eq_true _ ▸ hnot)
    rw [Option.some.injEq, numberOf_eq_ofDigitChars]
    exact ⟨fun h => ⟨hnonempty, hall, h⟩, fun h => h.value⟩

theorem beforeMark?_eq_some_iff {mark s before : List Char} :
    beforeMark? mark s = some before ↔ s = before ++ mark := by
  rw [beforeMark?, Option.map_eq_some_iff]
  simp only [afterMark?_eq_some_iff]
  constructor
  · rintro ⟨rest, hrest, rfl⟩
    rw [← List.reverse_reverse s, hrest, List.reverse_append, List.reverse_reverse]
  · rintro rfl
    exact ⟨before.reverse, List.reverse_append, List.reverse_reverse before⟩

end Text

theorem wide?_natCast_eq_some_iff {n : Nat} {k : Int64} :
    wide? n = some k ↔ n < twoTo 63 ∧ k.toInt = n := by
  have hbound : twoTo 63 = 9223372036854775808 := rfl
  have hk := k.toInt_lt
  constructor
  · intro h
    rw [wide?] at h
    split at h
    · cases h
      exact ⟨by omega, Int64.toInt_ofInt_of_le (by omega) (by omega)⟩
    · cases h
  · rintro ⟨-, hvalue⟩
    rw [← hvalue, wide?_toInt]

namespace Migration.FileName
open Text

/-- A name as it is put together. -/
def written (digits name : List Char) (direction : Direction) : List Char :=
  digits ++ '.' :: (name ++ '.' :: (direction.name.toList ++ ".sql".toList))

/-- The text is `<number>.<name>.<up|down>.sql`. -/
def IsSpelled (s : String) (n : Nat) (name : String) (direction : Direction) : Prop :=
  name ≠ "" ∧ ∃ digits, IsNumeral digits n ∧ s.toList = written digits name.toList direction

/-- A migration's file name, its number in at least so many digits. -/
def render (width : Nat) (f : FileName) : String :=
  .ofList (written (paddedDigits width f.number.toInt.toNat) f.name.toList f.direction)

/-! ### Cutting a name -/

theorem direction?_eq_some_iff {s : List Char} {direction : Direction} :
    direction? s = some direction ↔ s = direction.name.toList := by
  constructor
  · intro h
    rw [direction?] at h
    split at h
    · cases h
      assumption
    · split at h
      · cases h
        assumption
      · cases h
  · rintro rfl
    cases direction <;> decide

theorem not_mem_direction (direction : Direction) : '.' ∉ direction.name.toList := by
  cases direction <;> decide

variable {digits digits' name name' : List Char} {direction direction' : Direction}

theorem beforeMark?_written (digits name : List Char) (direction : Direction) :
    beforeMark? ".sql".toList (written digits name direction) =
      some (digits ++ '.' :: name ++ '.' :: direction.name.toList) := by
  rw [beforeMark?_eq_some_iff, written]
  simp only [List.append_assoc, List.cons_append]

/-- The direction begins behind the last point. -/
theorem cutLast?_written (digits name : List Char) (direction : Direction) :
    cutLast? ['.'] (digits ++ '.' :: name ++ '.' :: direction.name.toList) =
      some (digits ++ '.' :: name, direction.name.toList) :=
  cutLast?_singleton (not_mem_direction direction) _

/-- The number ends at the first point. -/
theorem cutFirst?_written (h : '.' ∉ digits) (name : List Char) :
    cutFirst? ['.'] (digits ++ '.' :: name) = some (digits, name) := by
  have hends := cutFirst?_append (endsAt_singleton h) name
  rwa [List.append_assoc, List.singleton_append] at hends

/-- What is put together of digits, a name and a direction is so in one way. -/
theorem eq_of_written_eq (h : '.' ∉ digits) (h' : '.' ∉ digits')
    (heq : written digits name direction = written digits' name' direction') :
    digits = digits' ∧ name = name' ∧ direction = direction' := by
  have hstem := beforeMark?_written digits name direction
  rw [heq, beforeMark?_written, Option.some.injEq] at hstem
  have hlast := cutLast?_written digits name direction
  rw [← hstem, cutLast?_written, Option.some.injEq, Prod.mk.injEq] at hlast
  obtain ⟨hrest, hway⟩ := hlast
  have hfirst := cutFirst?_written h name
  rw [← hrest, cutFirst?_written h', Option.some.injEq, Prod.mk.injEq] at hfirst
  obtain ⟨hdigits, hname⟩ := hfirst
  have hsome := direction?_eq_some_iff.2 hway.symm
  rw [direction?_eq_some_iff.2 rfl, Option.some.injEq] at hsome
  exact ⟨hdigits.symm, hname.symm, hsome⟩

/-! ### Reading a name -/

theorem number?_eq_some_iff {k : Int64} :
    number? digits = some k ↔ ∃ n, IsNumeral digits n ∧ n < twoTo 63 ∧ k.toInt = n := by
  simp only [number?, Option.bind_eq_some_iff, natural?_eq_some_iff, wide?_natCast_eq_some_iff]

theorem exists_written_of_ofChars? {s : List Char} {f : FileName} (h : ofChars? s = some f) :
    f.name ≠ "" ∧ ∃ digits, number? digits = some f.number ∧
      s = written digits f.name.toList f.direction := by
  simp only [ofChars?, Option.bind_eq_bind, Option.bind_eq_some_iff, Prod.exists] at h
  obtain ⟨stem, hstem, rest, way, hlast, direction, hway, digits, name, hfirst, h⟩ := h
  split at h
  · cases h
  · rename_i hname
    obtain ⟨k, hnumber, h⟩ := Option.bind_eq_some_iff.1 h
    cases h
    refine ⟨fun hempty => hname ?_, digits, hnumber, ?_⟩
    · rw [List.isEmpty_iff]
      exact String.ofList_eq_empty_iff.1 hempty
    · have hback : (String.ofList name).toList = name := String.toList_ofList
      rw [beforeMark?_eq_some_iff.1 hstem, eq_append_of_cutLast? hlast,
        eq_append_of_cutFirst? hfirst, direction?_eq_some_iff.1 hway, hback, written]
      simp only [List.append_assoc, List.cons_append, List.nil_append]

theorem ofChars?_written {name : String} {k : Int64} (hname : name ≠ "")
    (hnumber : number? digits = some k) (direction : Direction) :
    ofChars? (written digits name.toList direction) = some ⟨k, name, direction⟩ := by
  obtain ⟨n, hdigits, -⟩ := number?_eq_some_iff.1 hnumber
  have hempty : name.toList.isEmpty = false := by
    rw [List.isEmpty_eq_false_iff]
    exact mt String.toList_eq_nil_iff.1 hname
  simp only [ofChars?, beforeMark?_written, cutLast?_written,
    cutFirst?_written (hdigits.not_mem rfl), direction?_eq_some_iff.2 rfl, hempty, hnumber,
    Option.bind_eq_bind, Option.bind_some, Bool.false_eq_true, if_false, String.ofList_toList]

theorem ofText?_eq_some_iff {s : String} {f : FileName} : ofText? s = some f ↔
    ∃ n, IsSpelled s n f.name f.direction ∧ n < twoTo 63 ∧ f.number.toInt = n := by
  constructor
  · intro h
    obtain ⟨hname, digits, hnumber, hs⟩ := exists_written_of_ofChars? h
    obtain ⟨n, hdigits, hbound, hvalue⟩ := number?_eq_some_iff.1 hnumber
    exact ⟨n, ⟨hname, digits, hdigits, hs⟩, hbound, hvalue⟩
  · rintro ⟨n, ⟨hname, digits, hdigits, hs⟩, hbound, hvalue⟩
    rw [ofText?, hs]
    exact ofChars?_written hname (number?_eq_some_iff.2 ⟨n, hdigits, hbound, hvalue⟩) f.direction

theorem isSpelled_render (width : Nat) {f : FileName} (hname : f.name ≠ "") :
    IsSpelled (f.render width) f.number.toInt.toNat f.name f.direction :=
  ⟨hname, _, .paddedDigits width _, String.toList_ofList⟩

theorem IsSpelled.unique {s : String} {n n' : Nat} {name name' : String}
    (h : IsSpelled s n name direction) (h' : IsSpelled s n' name' direction') :
    n = n' ∧ name = name' ∧ direction = direction' := by
  obtain ⟨-, digits, hdigits, hs⟩ := h
  obtain ⟨-, digits', hdigits', hs'⟩ := h'
  obtain ⟨rfl, hname, rfl⟩ := eq_of_written_eq (hdigits.not_mem rfl) (hdigits'.not_mem rfl)
    (hs.symm.trans hs')
  exact ⟨hdigits.value.symm.trans hdigits'.value, String.toList_inj.1 hname, rfl⟩

/-- **Exactly the names that are spelled are read**, and what they say is read off them, provided
the number fits.  A migration with a number that is not negative and a name that is not empty is
read off its file name, whatever the width of the number, and no text is spelled in two ways. -/
theorem ofText?_exact :
    (∀ (s : String) (f : FileName), ofText? s = some f ↔
      ∃ n, IsSpelled s n f.name f.direction ∧ n < twoTo 63 ∧ f.number.toInt = n) ∧
    (∀ (width : Nat) (f : FileName), 0 ≤ f.number → f.name ≠ "" →
      ofText? (f.render width) = some f) ∧
    ∀ (s : String) (n n' : Nat) (name name' : String) (direction direction' : Direction),
      IsSpelled s n name direction → IsSpelled s n' name' direction' →
        n = n' ∧ name = name' ∧ direction = direction' := by
  refine ⟨fun s f => ofText?_eq_some_iff, fun width f hnumber hname => ?_,
    fun s n n' name name' direction direction' h h' => h.unique h'⟩
  have hbound : twoTo 63 = 9223372036854775808 := rfl
  have hlt := f.number.toInt_lt
  have hnot := Int64.le_iff_toInt_le.1 hnumber
  have hzero : (0 : Int64).toInt = 0 := rfl
  exact ofText?_eq_some_iff.2 ⟨f.number.toInt.toNat, isSpelled_render width hname, by omega,
    by omega⟩

/-- A name with a point in it, and a number with a zero before it. -/
def filesTable : FileName := ⟨10, "add_files.table", .down⟩

theorem filesTable_read :
    IsSpelled "010.add_files.table.down.sql" 10 "add_files.table" .down ∧
      ofText? "010.add_files.table.down.sql" = some filesTable ∧
      ofText? (filesTable.render 3) = some filesTable := by
  have hspelled : IsSpelled "010.add_files.table.down.sql" 10 "add_files.table" .down :=
    ⟨by decide, "010".toList, ⟨by simp, by simp, rfl⟩, rfl⟩
  exact ⟨hspelled, (ofText?_exact.1 _ filesTable).2 ⟨10, hspelled, by decide, by decide⟩,
    ofText?_exact.2.1 3 filesTable (by decide) (by decide)⟩

end Migration.FileName

end RecordLayer
