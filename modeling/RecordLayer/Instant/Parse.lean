import RecordLayer.Instant.Rfc3339
import RecordLayer.Text.Blank
import RecordLayer.Text.Word

/-!
# Instants — Parse

Reading stored timestamps: the RFC 3339 form, or the plain `2024-03-01 10:20:30.5` that
databases write for times without an offset, taken as universal time.  The plain form is loose
about widths and blanks and reaches far outside the four-digit years; so is the internet form in
documents.
-/

namespace RecordLayer.Instant
open Text

/-- A number of at most `most` digits, after any blanks. -/
def readLoose? (most : Nat) (s : List Char) : Option (Nat × List Char) :=
  leadingNumber? 1 most (trimStart s)

/-- A year: up to four digits, or a sign and any number of them. -/
def readYear? (s : List Char) : Option (Int × List Char) :=
  match trimStart s with
  | '-' :: s => (leadingNumber? 1 s.length s).map fun (n, s) => (-(n : Int), s)
  | '+' :: s => (leadingNumber? 1 s.length s).map fun (n, s) => ((n : Int), s)
  | s => (leadingNumber? 1 4 s).map fun (n, s) => ((n : Int), s)

/-- Reads the plain form. -/
def readPlain? (s : List Char) : Option Instant := do
  let (year, s) ← readYear? s
  let s ← expect? '-' s
  let (month, s) ← readLoose? 2 s
  let s ← expect? '-' s
  let (day, s) ← readLoose? 2 s
  let (hour, s) ← readLoose? 2 s
  let s ← expect? ':' s
  let (minute, s) ← readLoose? 2 s
  let s ← expect? ':' s
  let (second, s) ← readLoose? 2 s
  let (nanos, s) ← readFraction? s
  guard s.isEmpty
  ofReading? ⟨⟨year, month, day⟩, hour, minute, second, nanos⟩ 0

/-- The instant a stored text stands for, with any blanks around it. -/
def parse? (s : List Char) : Option Instant :=
  let s := trimmed s
  (readRfc3339? s).or (readPlain? s)

def ofText? (s : String) : Option Instant :=
  parse? s.toList

/-- An offset from universal time in minutes, or `UTC`; hours and minutes may have colons and
blanks between them. -/
def readLooseOffset? (s : List Char) : Option (Int × List Char) :=
  if sameWord (s.take 3) ['u', 't', 'c'] then some (0, s.drop 3)
  else match s with
    | 'Z' :: s | 'z' :: s => some (0, s)
    | sign :: s => do
      guard (sign == '+' || sign == '-' || sign == '\u2212')
      let (hours, s) ← leadingNumber? 2 2 s
      let (minutes, s) ← leadingNumber? 2 2 (s.dropWhile fun c => c == ':' || isBlank c)
      guard (hours < 24 && minutes < 60)
      let offset : Int := hours * 60 + minutes
      some (if sign == '+' then offset else -offset, s)
    | [] => none

/-- Reads an instant of a document: the internet form, with blanks allowed around its parts. -/
def ofDocument? (s : String) : Option Instant := do
  let (year, s) ← readYear? s.toList
  let s ← expect? '-' (trimStart s)
  let (month, s) ← readLoose? 2 s
  let s ← expect? '-' (trimStart s)
  let (day, s) ← readLoose? 2 s
  let s ← (expect? 'T' s <|> expect? 't' s <|> expect? ' ' s)
  let (hour, s) ← readLoose? 2 s
  let s ← expect? ':' (trimStart s)
  let (minute, s) ← readLoose? 2 s
  let s ← expect? ':' (trimStart s)
  let (second, s) ← readLoose? 2 s
  let (nanos, s) ← readFraction? s
  let (offset, s) ← readLooseOffset? (trimStart s)
  guard (trimStart s).isEmpty
  ofReading? ⟨⟨year, month, day⟩, hour, minute, second, nanos⟩ offset

end RecordLayer.Instant
