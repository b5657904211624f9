import RecordLayer.Text.Pattern

/-!
# Rules — Email

The pattern of the addresses that the email rule accepts: a local part, one `@`, and labels with
points between them.
-/

namespace RecordLayer.Email
open Text

def alphanumerics : CharSet :=
  [('A', 'Z'), ('a', 'z'), ('0', '9')]

/-- The characters of a local part. -/
def localChars : CharSet :=
  alphanumerics ++ .ofText ".!#$%&'*+/=?^_\x60\x7b|\x7d~-"

/-- The characters inside a label. -/
def labelChars : CharSet :=
  alphanumerics ++ .ofText "-"

/-- A letter or digit, and behind it, if the label goes on, at most 61 characters and another one
of those. -/
def label : Pattern :=
  .seq (.one alphanumerics)
    (.optional (.seq (.upTo 61 (.one labelChars)) (.one alphanumerics)))

def address : Pattern :=
  .seq (.oneOrMore (.one localChars))
    (.seq (.mark '@') (.seq label (.oneOrMore (.seq (.mark '.') label))))

def isAddress (s : List Char) : Bool :=
  address.accepts s

end RecordLayer.Email
