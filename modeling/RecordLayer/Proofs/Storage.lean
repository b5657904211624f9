import RecordLayer.Proofs.Decimal
import RecordLayer.Proofs.Instant
import RecordLayer.Proofs.Row

/-!
# Contents that are stored in cells

A content is stored by binding its column value, and read by giving a cell's value to its field's
kind.  Backends read a bound value back as it was, truth values perhaps as numbers, and decimals
and instants as their text (`ReadsBack`); a column that was left out is null or empty.  Either way
the content comes back, decimals by value, but for instants whose year four digits do not hold:
their text is no longer read (`content?_of_holds`, `content?_of_not_hasFourDigitYear`).
-/

namespace RecordLayer

/-- A cell that a backend may answer for a bound value. -/
inductive ReadsBack : Value → Cell → Prop where
  | null : ReadsBack .null .null
  | text (s : String) : ReadsBack (.text s) (.text s)
  | int (n : Int64) : ReadsBack (.int n) (.int n)
  | bool (b : Bool) : ReadsBack (.bool b) (.bool b)
  | bit (b : Bool) : ReadsBack (.bool b) (.int (if b then 1 else 0))
  | decimal (d : Decimal) : ReadsBack (.decimal d) (.text (toString d))
  | timestamp (t : Instant) : ReadsBack (.timestamp t) (.text (toString t))

namespace Value

/-- The cell of a store that keeps truth values as numbers, and decimals and instants as text. -/
def toCell : Value → Cell
  | null        => .null
  | text s      => .text s
  | int n       => .int n
  | bool b      => .int (if b then 1 else 0)
  | decimal d   => .text (toString d)
  | timestamp t => .text (toString t)

theorem readsBack_toCell (v : Value) : ReadsBack v v.toCell := by
  cases v with
  | null => exact .null
  | text s => exact .text s
  | int n => exact .int n
  | bool b => exact .bit b
  | decimal d => exact .decimal d
  | timestamp t => exact .timestamp t

end Value

/-- The value is no instant whose year needs a sign. -/
def Value.hasFourDigitYear : Value → Bool
  | .timestamp t => t.hasFourDigitYear
  | _            => true

/-- No stored instant has a year that needs a sign. -/
def Record.HasFourDigitYears {e : Entity} (r : Record e) : Prop :=
  ∀ i, (e.field i).isPersistable = true → (r.value i).hasFourDigitYear = true

namespace Kind

/-- The cell stands for a content: it is answered for the bound content, or it is null and the
content the empty one. -/
def Holds (k : Kind) (x : k.Content) (cell : Cell) : Prop :=
  ReadsBack (k.toValue x) cell ∨ x = k.empty ∧ cell = .null

theorem content?_null (k : Kind) : Cell.null.content? k = some k.empty := rfl

/-- A text is an instant's only if it is read as one. -/
theorem content?_instant (t : Instant) :
    (Cell.text (toString t)).content? .timestamp =
      if t.hasFourDigitYear then some (some t) else none := by
  have hread : (Cell.text (toString t)).content? .timestamp =
      (Instant.ofText? (toString t)).map some := rfl
  rw [hread, Instant.ofText?_toString]
  split <;> rfl

theorem content?_decimal (d : Decimal) :
    (Cell.text (toString d)).content? .decimal = some d.unsignedZero := by
  have hread : (Cell.text (toString d)).content? .decimal =
      Decimal.ofText? (trim (toString d)) := rfl
  rw [hread, Decimal.ofText?_toString]

theorem content?_optDecimal (d : Decimal) :
    (Cell.text (toString d)).content? .optDecimal = some (some d.unsignedZero) := by
  have hread : (Cell.text (toString d)).content? .optDecimal =
      (Decimal.ofText? (trim (toString d))).map some := rfl
  rw [hread, Decimal.ofText?_toString, Option.map_some]

/-- **A stored content is read back**, decimals by value. -/
theorem content?_of_holds {k : Kind} {x : k.Content} {cell : Cell} (h : k.Holds x cell)
    (hyear : (k.toValue x).hasFourDigitYear = true) :
    ∃ y, cell.content? k = some y ∧ k.same y x = true := by
  rcases h with h | ⟨rfl, rfl⟩
  · cases k with
    | int => cases h; exact ⟨x, rfl, beq_self_eq_true x⟩
    | text => cases h; exact ⟨x, rfl, beq_self_eq_true x⟩
    | bool =>
      cases h with
      | bool => exact ⟨x, rfl, beq_self_eq_true x⟩
      | bit => cases x <;> exact ⟨_, rfl, by decide⟩
    | decimal =>
      cases h
      exact ⟨_, content?_decimal x, Decimal.same_unsignedZero x⟩
    | optInt => cases x <;> cases h <;> exact ⟨_, rfl, beq_self_eq_true _⟩
    | optText => cases x <;> cases h <;> exact ⟨_, rfl, beq_self_eq_true _⟩
    | optBool =>
      cases x with
      | none => cases h; exact ⟨none, rfl, rfl⟩
      | some b =>
        cases h with
        | bool => exact ⟨some b, rfl, beq_self_eq_true _⟩
        | bit => cases b <;> exact ⟨_, rfl, by decide⟩
    | optDecimal =>
      cases x with
      | none => cases h; exact ⟨none, rfl, rfl⟩
      | some d =>
        cases h
        exact ⟨_, content?_optDecimal d, Decimal.same_unsignedZero d⟩
    | timestamp =>
      cases x with
      | none => cases h; exact ⟨none, rfl, rfl⟩
      | some t =>
        cases h
        have hyear : t.hasFourDigitYear = true := hyear
        refine ⟨some t, ?_, beq_self_eq_true _⟩
        rw [content?_instant, hyear, if_pos rfl]
  · exact ⟨k.empty, content?_null k, same_refl k _⟩

/-- An instant whose year needs a sign is not read back. -/
theorem content?_of_not_hasFourDigitYear {k : Kind} {x : k.Content} {cell : Cell}
    (h : k.Holds x cell) (hyear : (k.toValue x).hasFourDigitYear = false) :
    cell.content? k = none := by
  cases k with
  | timestamp =>
    cases x with
    | none => cases hyear
    | some t =>
      have hyear : t.hasFourDigitYear = false := hyear
      rcases h with h | ⟨hx, -⟩
      · cases h
        rw [content?_instant, hyear, if_neg Bool.false_ne_true]
      · cases hx
  | optInt => cases x <;> cases hyear
  | optText => cases x <;> cases hyear
  | optBool => cases x <;> cases hyear
  | optDecimal => cases x <;> cases hyear
  | _ => cases hyear

end Kind

end RecordLayer
