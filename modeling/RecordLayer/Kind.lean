import RecordLayer.Value

/-!
# Field kinds

The nine kinds of field a record can have.  A kind fixes what a field contains, its empty
state, how the content reads as a column value, and which column values it accepts.
-/

namespace RecordLayer

inductive Kind where
  | int
  | optInt
  | text
  | optText
  | bool
  | optBool
  | decimal
  | optDecimal
  | timestamp
deriving DecidableEq, Repr

namespace Kind

def name : Kind → String
  | int        => "Int"
  | optInt     => "OptInt"
  | text       => "Text"
  | optText    => "OptText"
  | bool       => "Bool"
  | optBool    => "OptBool"
  | decimal    => "Decimal"
  | optDecimal => "OptDecimal"
  | timestamp  => "Timestamp"

/-- What a field of the kind contains. -/
@[reducible] def Content : Kind → Type
  | int        => Int64
  | optInt     => Option Int64
  | text       => String
  | optText    => Option String
  | bool       => Bool
  | optBool    => Option Bool
  | decimal    => Decimal
  | optDecimal => Option Decimal
  | timestamp  => Option Instant

/-- The empty state: zero, the empty text, false, or absent. -/
def empty : (k : Kind) → k.Content
  | int        => (0 : Int64)
  | optInt     => none
  | text       => ""
  | optText    => none
  | bool       => false
  | optBool    => none
  | decimal    => Decimal.zero
  | optDecimal => none
  | timestamp  => none

/-- The content as a column value; an absent one is null. -/
def toValue : (k : Kind) → k.Content → Value
  | int,        n => .int n
  | optInt,     n => n.elim .null .int
  | text,       s => .text s
  | optText,    s => s.elim .null .text
  | bool,       b => .bool b
  | optBool,    b => b.elim .null .bool
  | decimal,    d => .decimal d
  | optDecimal, d => d.elim .null .decimal
  | timestamp,  t => t.elim .null .timestamp

/-- Equality of contents: decimals by value. -/
def same : (k : Kind) → k.Content → k.Content → Bool
  | int,        a,      b      => a == b
  | optInt,     a,      b      => a == b
  | text,       a,      b      => a == b
  | optText,    a,      b      => a == b
  | bool,       a,      b      => a == b
  | optBool,    a,      b      => a == b
  | decimal,    a,      b      => a.same b
  | optDecimal, some a, some b => a.same b
  | optDecimal, none,   none   => true
  | optDecimal, _,      _      => false
  | timestamp,  a,      b      => a == b

/-- The content a column value other than null stands for, if the kind can represent it. -/
def convert? : (k : Kind) → Value → Option k.Content
  | int,        v => v.asInt?
  | optInt,     v => v.asInt?.map some
  | text,       v => v.toText?
  | optText,    v => v.toText?.map some
  | bool,       v => v.toBool?
  | optBool,    v => v.toBool?.map some
  | decimal,    v => v.toDecimal?
  | optDecimal, v => v.toDecimal?.map some
  | timestamp,  v => v.toTimestamp?.map some

/-- The content a column value stands for; null is the empty state of every kind. -/
def read? (k : Kind) (v : Value) : Option k.Content :=
  if v.isNull then some k.empty else k.convert? v

/-- Stores a column value over a content, and says whether the kind can represent it; the content
is left as it is if not. -/
def store (k : Kind) (x : k.Content) (v : Value) : Bool × k.Content :=
  match k.read? v with
  | some y => (true, y)
  | none => (false, x)

end Kind

end RecordLayer
