import RecordLayer.Catalog

/-!
# Assigning a field

A column value that a field's kind can represent replaces the field's content, possibly converted:
a text becomes an instant, a number its digits.  One that it cannot leaves the record as it was.
What a field reads as is a value that it takes back unchanged (`Kind.read?_toValue`), so that
nothing is converted twice, and copying a field is assigning what the other record's field reads
as.
-/

namespace RecordLayer

namespace Kind
variable {k : Kind} {v : Value}

/-- A content is read back from its column value. -/
theorem read?_toValue (k : Kind) (x : k.Content) : k.read? (k.toValue x) = some x := by
  cases k with
  | optInt | optText | optBool | optDecimal | timestamp => cases x <;> rfl
  | _ => rfl

theorem read?_null (k : Kind) : k.read? .null = some k.empty :=
  rfl

theorem store_of_read {y : k.Content} (h : k.read? v = some y) (x : k.Content) :
    k.store x v = (true, y) := by
  rw [store, h]

theorem store_of_not_read (h : k.read? v = none) (x : k.Content) : k.store x v = (false, x) := by
  rw [store, h]

end Kind

namespace Record
variable {e : Entity} {i : e.Position} {v : Value}

theorem assign_of_read {x : (e.field i).kind.Content} (h : (e.field i).kind.read? v = some x)
    (r : Record e) : r.assign i v = (true, r.set i x) := by
  rw [assign, Kind.store_of_read h]

theorem assign_of_not_read (h : (e.field i).kind.read? v = none) (r : Record e) :
    r.assign i v = (false, r) := by
  rw [assign, Kind.store_of_not_read h]
  exact congrArg (Prod.mk false) (r.set_content i)

/-- The two ways of assigning agree on what fits and on the record then. -/
theorem assign?_eq (r : Record e) (i : e.Position) (v : Value) :
    r.assign? i v = if (r.assign i v).1 then some (r.assign i v).2 else none := by
  cases h : (e.field i).kind.read? v with
  | none => rw [assign?, h, assign_of_not_read h]; rfl
  | some x => rw [assign?, h, assign_of_read h]; rfl

theorem assign_null (r : Record e) (i : e.Position) :
    r.assign i .null = (true, r.set i (e.field i).kind.empty) :=
  assign_of_read (Kind.read?_null _) r

/-- Assigning what another record's field reads as is copying the field. -/
theorem assign_value (r source : Record e) (i : e.Position) :
    r.assign i (source.value i) = (true, r.copyFrom source i) :=
  assign_of_read (Kind.read?_toValue _ _) r

theorem copyFrom_self (r : Record e) (i : e.Position) : r.copyFrom r i = r :=
  r.set_content i

theorem eq_of_not_fits {r : Record e} (h : (r.assign i v).1 = false) : (r.assign i v).2 = r := by
  cases hread : (e.field i).kind.read? v with
  | none => rw [assign_of_not_read hread]
  | some x =>
    rw [assign_of_read hread] at h
    cases h

theorem content_assign_of_ne {j : e.Position} (h : j ≠ i) (r : Record e) :
    (r.assign i v).2.content j = r.content j :=
  content_set_of_ne h

/-- **Assigning a field is all or nothing, and settles it.**  A value that does not fit leaves the
record as it is.  One that fits changes that field only, to a state in which assigning what the
field reads as changes nothing more.  Null fits every kind and empties the field, and copying a
field from another record is assigning what it reads as there. -/
theorem assign_settles (r source : Record e) (i : e.Position) (v : Value) :
    ((r.assign i v).1 = false → (r.assign i v).2 = r) ∧
      ((r.assign i v).1 = true →
        (∀ j ≠ i, (r.assign i v).2.content j = r.content j) ∧
        (r.assign i v).2.assign i ((r.assign i v).2.value i) = (true, (r.assign i v).2)) ∧
      r.assign i .null = (true, r.set i (e.field i).kind.empty) ∧
      r.assign i (source.value i) = (true, r.copyFrom source i) := by
  refine ⟨eq_of_not_fits, fun _ => ⟨fun j hj => content_assign_of_ne hj r, ?_⟩, r.assign_null i,
    r.assign_value source i⟩
  -- The record takes the field from itself.
  rw [assign_value, copyFrom_self]

/-- A job's time is taken from its stored text, is then an instant, and stays so when something that
is no time is assigned. -/
theorem assign_settles_insertedAt :
    let i : Catalog.job.Position := ⟨3, by decide⟩
    let stored := ((Record.empty Catalog.job).assign i (.text "2024-02-29 12:30:00")).2
    stored.value i = .timestamp ⟨1709209800, 0, by decide, by decide⟩ ∧
      stored.assign i (stored.value i) = (true, stored) ∧
      (stored.assign i (.text "soon")).2 = stored := by
  intro i stored
  have hfits : ((Record.empty Catalog.job).assign i (.text "2024-02-29 12:30:00")).1 = true := by
    decide +kernel
  have hrefused : (stored.assign i (.text "soon")).1 = false := by decide +kernel
  have hsettled := assign_settles (.empty _) stored i (.text "2024-02-29 12:30:00")
  exact ⟨by decide +kernel, (hsettled.2.1 hfits).2,
    (assign_settles stored stored i (.text "soon")).1 hrefused⟩

end Record

end RecordLayer
