/-!
# Text — Pattern

Regular patterns: characters of a set, patterns after one another, alternatives and repetitions.
A text matches a pattern as a whole, from its first character to its last.  Matching goes
character by character: what has to follow a character is a pattern again (`Pattern.after`), and a
text matches if the pattern that is left at its end may be empty.
-/

namespace RecordLayer.Text

/-- A set of characters, as ranges with both of their ends. -/
abbrev CharSet := List (Char × Char)

namespace CharSet

def has (set : CharSet) (c : Char) : Bool :=
  set.any fun (first, last) => first ≤ c && c ≤ last

/-- The characters of a text. -/
def ofText (s : String) : CharSet :=
  s.toList.map fun c => (c, c)

end CharSet

inductive Pattern where
  /-- Matches no text. -/
  | never
  /-- Matches the empty text. -/
  | empty
  /-- One character of the set. -/
  | one (set : CharSet)
  | seq (p q : Pattern)
  | either (p q : Pattern)
  /-- At most `n` times. -/
  | upTo (n : Nat) (p : Pattern)
  /-- Any number of times. -/
  | many (p : Pattern)

namespace Pattern

/-- The one character. -/
def mark (c : Char) : Pattern :=
  .one [(c, c)]

/-- Once or not at all. -/
def optional (p : Pattern) : Pattern :=
  .upTo 1 p

/-- Once or more often. -/
def oneOrMore (p : Pattern) : Pattern :=
  .seq p (.many p)

/-- The empty text matches. -/
def matchesEmpty : Pattern → Bool
  | never | one _     => false
  | empty             => true
  | seq p q           => p.matchesEmpty && q.matchesEmpty
  | either p q        => p.matchesEmpty || q.matchesEmpty
  | upTo _ _ | many _ => true

/-- One pattern after the other, in a short form. -/
def followedBy : Pattern → Pattern → Pattern
  | never, _ => never
  | empty, q => q
  | p,     q => seq p q

/-- One of two patterns, in a short form. -/
def orElse : Pattern → Pattern → Pattern
  | never, q     => q
  | p,     never => p
  | p,     q     => either p q

/-- What has to follow a character. -/
def after (c : Char) : Pattern → Pattern
  | never | empty  => never
  | one set        => if set.has c then empty else never
  | seq p q        =>
    if p.matchesEmpty then ((p.after c).followedBy q).orElse (q.after c)
    else (p.after c).followedBy q
  | either p q     => (p.after c).orElse (q.after c)
  | upTo 0 _       => never
  | upTo (n + 1) p => (p.after c).followedBy (upTo n p)
  | many p         => (p.after c).followedBy (many p)

/-- The whole text matches. -/
def accepts : Pattern → List Char → Bool
  | p, []     => p.matchesEmpty
  | p, c :: s => (p.after c).accepts s

end Pattern

end RecordLayer.Text
