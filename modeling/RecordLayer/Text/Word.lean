/-!
# Text — Word

The characters of identifiers (ASCII letters, digits, underscore), and comparison of
identifiers without regard to the case of ASCII letters.
-/

namespace RecordLayer.Text

def isWordStart (c : Char) : Bool :=
  c.isAlpha || c == '_'

def isWordChar (c : Char) : Bool :=
  c.isAlphanum || c == '_'

theorem isWordChar_of_isWordStart {c : Char} (h : isWordStart c = true) :
    isWordChar c = true := by
  simp only [isWordStart, isWordChar, Char.isAlphanum, Bool.or_eq_true] at h ⊢
  rcases h with h | h
  · exact .inl (.inl h)
  · exact .inr h

/-- ASCII letters in lower case, every other character as it is. -/
def folded (s : List Char) : List Char :=
  s.map Char.toLower

@[simp] theorem length_folded (s : List Char) : (folded s).length = s.length :=
  List.length_map _

theorem toLower_eq_iff {c d : Char} (hd : d.isAlpha = false) : c.toLower = d ↔ c = d := by
  delta Char.isAlpha Char.isUpper Char.isLower at hd
  simp only [Bool.or_eq_false_iff, Bool.and_eq_false_iff, decide_eq_false_iff_not] at hd
  delta Char.toLower
  grind

theorem mem_folded_iff {c : Char} (hc : c.isAlpha = false) {s : List Char} :
    c ∈ folded s ↔ c ∈ s := by
  simp only [folded, List.mem_map, toLower_eq_iff hc, exists_eq_right]

/-- Equality of identifiers: ASCII letters match in either case. -/
def sameWord (s t : List Char) : Bool :=
  folded s == folded t

@[simp] theorem sameWord_refl (s : List Char) : sameWord s s = true := by
  simp [sameWord]

theorem sameWord_comm (s t : List Char) : sameWord s t = sameWord t s := by
  simp [sameWord, Bool.beq_comm]

end RecordLayer.Text

namespace RecordLayer

/-- Equality of names: ASCII letters match in either case. -/
def sameName (s t : String) : Bool :=
  Text.sameWord s.toList t.toList

theorem sameName_comm (s t : String) : sameName s t = sameName t s :=
  Text.sameWord_comm _ _

theorem folded_eq_of_sameName {s t : String} (h : sameName s t = true) :
    Text.folded s.toList = Text.folded t.toList :=
  eq_of_beq h

@[simp] theorem sameName_refl (s : String) : sameName s s = true := by
  simp [sameName]

end RecordLayer
