import RecordLayer.Entity

/-!
# Records

A record of an entity gives each field a content of its kind.  Reading, assigning, copying and
comparing all go through a field's position; assigning or copying one field leaves the others
as they are.
-/

namespace RecordLayer

@[ext] structure Record (e : Entity) where
  content : (i : e.Position) → (e.field i).kind.Content

namespace Record
variable {e : Entity}

/-- Every field in the empty state of its kind. -/
def empty (e : Entity) : Record e :=
  ⟨fun i => (e.field i).kind.empty⟩

instance : Inhabited (Record e) := ⟨empty e⟩

/-- The record with one field's content replaced. -/
def set (r : Record e) (i : e.Position) (x : (e.field i).kind.Content) : Record e :=
  ⟨fun j => if h : j = i then h ▸ x else r.content j⟩

@[simp] theorem content_set_self (r : Record e) (i : e.Position)
    (x : (e.field i).kind.Content) : (r.set i x).content i = x := by
  simp [set]

theorem content_set_of_ne {r : Record e} {i j : e.Position} {x : (e.field i).kind.Content}
    (h : j ≠ i) : (r.set i x).content j = r.content j := by
  simp [set, h]

@[simp] theorem set_content (r : Record e) (i : e.Position) : r.set i (r.content i) = r := by
  ext j
  by_cases h : j = i
  · subst h
    rw [content_set_self]
  · rw [content_set_of_ne h]

/-- The field as a column value. -/
def value (r : Record e) (i : e.Position) : Value :=
  (e.field i).kind.toValue (r.content i)

def isBlank (r : Record e) (i : e.Position) : Bool :=
  (r.value i).isBlank

/-- The two records agree on the field; decimals agree by value. -/
def same (a b : Record e) (i : e.Position) : Bool :=
  (e.field i).kind.same (a.content i) (b.content i)

/-- The record with the field taken from another record. -/
def copyFrom (r source : Record e) (i : e.Position) : Record e :=
  r.set i (source.content i)

/-- Assigns a column value to a field: whether it fits, and the record afterwards. -/
def assign (r : Record e) (i : e.Position) (v : Value) : Bool × Record e :=
  let (fits, x) := (e.field i).kind.store (r.content i) v
  (fits, r.set i x)

/-- The record with the field set to a column value, if the field's kind can represent it. -/
def assign? (r : Record e) (i : e.Position) (v : Value) : Option (Record e) :=
  ((e.field i).kind.read? v).map (r.set i)

/-- The record with the named field set to a column value; a value that does not fit, or a name
that no field has, changes nothing. -/
def put (r : Record e) (name : String) (v : Value) : Record e :=
  ((e.byName? name).bind fun i => r.assign? i v).getD r

end Record

end RecordLayer
