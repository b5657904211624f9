import RecordLayer.Text.Blank
import RecordLayer.Url.Escape

/-!
# URLs — Path

Paths as segments between slashes.  The segments `.` and `..`, written out or escaped, are not
kept: the first stays where it is and the second leaves the segment before it, unless that names
a drive.
-/

namespace RecordLayer.Url
open Text

/-- A path that begins with a slash, by its segments; nothing if there is no path. -/
abbrev Path := List (List Char)

namespace Path

/-- A segment with its escaped points written out. -/
def withPoints : List Char → List Char
  | '%' :: '2' :: 'e' :: s => '.' :: withPoints s
  | '%' :: '2' :: 'E' :: s => '.' :: withPoints s
  | c :: s => c :: withPoints s
  | [] => []

def isHere (segment : List Char) : Bool :=
  withPoints segment == ['.']

def isParent (segment : List Char) : Bool :=
  withPoints segment == ['.', '.']

/-- The segment begins with the letter of a drive. -/
def isDrive : List Char → Bool
  | [letter, mark] => letter.isAlpha && (mark == ':' || mark == '|')
  | letter :: mark :: '\\' :: _ => letter.isAlpha && (mark == ':' || mark == '|')
  | _ => false

/-- Leaves the innermost segment; they stand innermost first. -/
def leave : List (List Char) → List (List Char)
  | [] => []
  | segment :: outer => if isDrive segment then segment :: outer else outer

/-- Follows segments from a place, whose own stand innermost first. -/
def follow (place : List (List Char)) : List (List Char) → Path
  | [] => place.reverse
  | [segment] =>
    if isParent segment then ([] :: leave place).reverse
    else if isHere segment then ([] :: place).reverse
    else (segment :: place).reverse
  | segment :: rest =>
    if isParent segment then follow (leave place) rest
    else if isHere segment then follow place rest
    else follow (segment :: place) rest

/-- The path of the text behind its first slash. -/
def ofText (s : List Char) : Path :=
  follow [] (cutAt '/' (escapeWhere isForeignToPath s))

def render (path : Path) : List Char :=
  path.flatMap ('/' :: ·)

end Path

end RecordLayer.Url
