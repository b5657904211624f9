/-!
# Text — Blank

White space, trimming and words.  A character is blank when Unicode gives it the property
White_Space; trimming removes blanks at both ends and the words of a text are its longest
runs of other characters.
-/

namespace RecordLayer.Text

/-- The characters with the property White_Space. -/
def isBlank (c : Char) : Bool :=
  ('\t' ≤ c && c ≤ '\r') || c == ' ' || c == '\u0085' || c == '\u00a0' || c == '\u1680' ||
  ('\u2000' ≤ c && c ≤ '\u200a') || c == '\u2028' || c == '\u2029' || c == '\u202f' ||
  c == '\u205f' || c == '\u3000'

/-- The five blanks of ASCII text that scripts are laid out with: space, tab, newline, form
feed and carriage return. -/
def isAsciiBlank (c : Char) : Bool :=
  c == ' ' || c == '\t' || c == '\n' || c == '\x0c' || c == '\r'

theorem isBlank_of_isAsciiBlank {c : Char} (h : isAsciiBlank c = true) : isBlank c = true := by
  simp only [isAsciiBlank, Bool.or_eq_true, beq_iff_eq] at h
  rcases h with (((rfl | rfl) | rfl) | rfl) | rfl <;> decide

def trimStart (s : List Char) : List Char :=
  s.dropWhile isBlank

def trimEnd (s : List Char) : List Char :=
  (s.reverse.dropWhile isBlank).reverse

def trimmed (s : List Char) : List Char :=
  trimEnd (trimStart s)

/-- Cuts a text at every character that satisfies `p`; those characters are dropped. -/
def cutWhere (p : Char → Bool) : List Char → List (List Char)
  | [] => [[]]
  | c :: s =>
    if p c then [] :: cutWhere p s
    else match cutWhere p s with
      | [] => [[c]]
      | piece :: rest => (c :: piece) :: rest

/-- The words of a text, in order. -/
def words (s : List Char) : List (List Char) :=
  (cutWhere isBlank s).filter (!·.isEmpty)

/-- The text between commas and the like: the pieces left by cutting at `mark`. -/
def cutAt (mark : Char) (s : List Char) : List (List Char) :=
  cutWhere (· == mark) s

/-- The items of a comma-separated list, trimmed, empty ones left out. -/
def listItems (s : List Char) : List (List Char) :=
  ((cutAt ',' s).map trimmed).filter (!·.isEmpty)

/-- Puts `mark` between consecutive pieces. -/
def joined (mark : List Char) : List (List Char) → List Char
  | [] => []
  | [piece] => piece
  | piece :: rest => piece ++ mark ++ joined mark rest

end RecordLayer.Text

namespace RecordLayer

/-- A text without the blanks at its two ends. -/
def trim (s : String) : String :=
  .ofList (Text.trimmed s.toList)

/-- The items of a comma-separated list, trimmed, empty ones left out. -/
def listItems (s : String) : List String :=
  (Text.listItems s.toList).map .ofList

/-- Puts `mark` between consecutive texts. -/
def joinWith (mark : String) : List String → String
  | [] => ""
  | [piece] => piece
  | piece :: rest => piece ++ mark ++ joinWith mark rest

end RecordLayer
