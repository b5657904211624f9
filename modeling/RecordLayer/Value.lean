import RecordLayer.Decimal.Numeral
import RecordLayer.Instant.Parse

/-!
# Values

What a column can hold, in a form that the change detector, the binder and the row decoder
share.  Decimals compare by value, so that `1.5` and `1.50` are the same column value.
-/

namespace RecordLayer

inductive Value where
  | null
  | text (s : String)
  | int (n : Int64)
  | bool (b : Bool)
  | decimal (d : Decimal)
  | timestamp (t : Instant)
deriving DecidableEq, Inhabited

namespace Value

def isNull : Value → Bool
  | null => true
  | _    => false

/-- Null, the empty text and the integer zero count as not given. -/
def isBlank : Value → Bool
  | null        => true
  | text s      => s.isEmpty
  | int n       => n == 0
  | bool _      => false
  | decimal _   => false
  | timestamp _ => false

/-- Equality of column values: decimals by value, all else exactly. -/
def same : Value → Value → Bool
  | decimal a, decimal b => a.same b
  | a,         b         => a == b

def asInt? : Value → Option Int64
  | int n => some n
  | _     => none

def asText? : Value → Option String
  | text s => some s
  | _      => none

/-- A truth value, or an integer read as one. -/
def asBool? : Value → Option Bool
  | bool b => some b
  | int n  => some (n != 0)
  | _      => none

/-- A decimal, or an integer read as one. -/
def asDecimal? : Value → Option Decimal
  | decimal d => some d
  | int n     => some (.ofInt n)
  | _         => none

def asTimestamp? : Value → Option Instant
  | timestamp t => some t
  | _           => none

/-- The value as text; texts are not quoted. -/
def render : Value → String
  | null        => "NULL"
  | text s      => s
  | int n       => toString n.toInt
  | bool b      => if b then "true" else "false"
  | decimal d   => toString d
  | timestamp t => toString t

instance : ToString Value := ⟨render⟩

/-! ### Reading a column value as a field's content -/

/-- The written form of any value but null. -/
def toText? : Value → Option String
  | null => none
  | v    => some v.render

/-- A truth value, also from the texts that backends write for one. -/
def toBool? : Value → Option Bool
  | text s =>
    if ["1", "t", "true", "TRUE"].contains s then some true
    else if ["0", "f", "false", "FALSE"].contains s then some false
    else none
  | v => v.asBool?

/-- A decimal, also from its text with blanks around it. -/
def toDecimal? : Value → Option Decimal
  | text s => Decimal.ofText? (trim s)
  | v      => v.asDecimal?

/-- An instant, also from its stored text. -/
def toTimestamp? : Value → Option Instant
  | text s => Instant.ofText? s
  | v      => v.asTimestamp?

end Value

end RecordLayer
