import RecordLayer.Entity
import RecordLayer.Proofs.Text.Identifier

/-!
# Entities that have a table

An entity can be written as a table if its names are identifiers and no two fields share a column
(`IsWritable`): a statement then names each field by its column.  It can be read back if the columns
differ in more than letter case (`HasDistinctColumns`): then a column belongs to one field, whatever
the case in which a row spells it.  `IsTabular` is both.
-/

namespace RecordLayer
open Text

namespace Kind

theorem same_refl (k : Kind) (x : k.Content) : k.same x x = true := by
  cases k with
  | optDecimal => cases x with
    | none => rfl
    | some d => exact Decimal.same_refl d
  | decimal => exact Decimal.same_refl x
  | _ => exact beq_self_eq_true x

end Kind

namespace Entity

/-- The column of a field; empty for a transient one. -/
def columnOf (e : Entity) (i : e.Position) : String :=
  (e.field i).column.getD ""

/-- Table and columns are identifiers, and no two fields share a column. -/
structure IsWritable (e : Entity) : Prop where
  table : isIdentifier e.table.toList = true
  columns : ∀ i, ∀ c ∈ (e.field i).column, isIdentifier c.toList = true
  distinct : ∀ i j, ∀ c ∈ (e.field i).column, c ∈ (e.field j).column → i = j

/-- No two fields share a column, letter case aside. -/
def HasDistinctColumns (e : Entity) : Prop :=
  ∀ i j, ∀ c ∈ (e.field i).column, ∀ d ∈ (e.field j).column, sameName c d = true → i = j

/-- Every key is an integer, as those are that backends assign. -/
def HasIntegerKeys (e : Entity) : Prop :=
  ∀ i, (e.field i).identity = true → (e.field i).kind = .int

/-- Table and columns are identifiers, and no two fields share a column, letter case aside. -/
structure IsTabular (e : Entity) : Prop where
  table : isIdentifier e.table.toList = true
  columns : ∀ i, ∀ c ∈ (e.field i).column, isIdentifier c.toList = true
  distinct : ∀ i j, ∀ c ∈ (e.field i).column, ∀ d ∈ (e.field j).column,
    sameName c d = true → i = j

variable {e : Entity}

theorem column_eq_of_isPersistable {i : e.Position} (h : (e.field i).isPersistable = true) :
    (e.field i).column = some (e.columnOf i) := by
  obtain ⟨c, hc⟩ := Option.isSome_iff_exists.1 h
  rw [columnOf, hc]
  rfl

theorem mem_persistable {i : e.Position} :
    i ∈ e.persistable ↔ (e.field i).isPersistable = true := by
  simp [persistable, positions, List.mem_finRange]

theorem any_column_of_byColumn? {column : String} {i : e.Position}
    (h : e.byColumn? column = some i) :
    ∃ c, (e.field i).column = some c ∧ sameName c column = true := by
  rw [byColumn?] at h
  have hany := List.find?_some h
  cases hc : (e.field i).column with
  | none =>
    rw [hc] at hany
    cases hany
  | some c =>
    rw [hc] at hany
    exact ⟨c, rfl, hany⟩

theorem IsTabular.hasDistinctColumns (he : e.IsTabular) : e.HasDistinctColumns :=
  he.distinct

theorem IsTabular.isWritable (he : e.IsTabular) : e.IsWritable where
  table := he.table
  columns := he.columns
  distinct i j c hi hj := he.distinct i j c hi c hj (sameName_refl c)

namespace IsWritable

theorem isIdentifier_columnOf (he : e.IsWritable) {i : e.Position}
    (h : (e.field i).isPersistable = true) : isIdentifier (e.columnOf i).toList = true :=
  he.columns i _ (column_eq_of_isPersistable h)

theorem columnOf_injective (he : e.IsWritable) {i j : e.Position}
    (hi : (e.field i).isPersistable = true) (hj : (e.field j).isPersistable = true)
    (h : e.columnOf i = e.columnOf j) : i = j :=
  he.distinct i j _ (column_eq_of_isPersistable hi) (h ▸ column_eq_of_isPersistable hj)

end IsWritable

theorem HasDistinctColumns.byColumn?_eq_some (he : e.HasDistinctColumns) {i : e.Position}
    (h : (e.field i).isPersistable = true) {column : String}
    (hname : sameName (e.columnOf i) column = true) : e.byColumn? column = some i := by
  have hany : (e.field i).column.any (sameName · column) = true := by
    rw [column_eq_of_isPersistable h]
    exact hname
  cases hfind : e.byColumn? column with
  | none => exact absurd hany (List.find?_eq_none.1 hfind i (List.mem_finRange i))
  | some j =>
    obtain ⟨d, hd, hdname⟩ := any_column_of_byColumn? hfind
    have hsame : sameName d (e.columnOf i) = true := by
      simp only [sameName, sameWord, beq_iff_eq] at hname hdname ⊢
      rw [hdname, hname]
    rw [he j i d hd _ (column_eq_of_isPersistable h) hsame]

/-- The field of a column is stored in it, letter case aside. -/
theorem of_byColumn? {column : String} {i : e.Position} (h : e.byColumn? column = some i) :
    (e.field i).isPersistable = true ∧ sameName (e.columnOf i) column = true := by
  obtain ⟨c, hcolumn, hname⟩ := any_column_of_byColumn? h
  refine ⟨by rw [Field.isPersistable, hcolumn]; rfl, ?_⟩
  rw [columnOf, hcolumn]
  exact hname

/-- The key is a stored field that is marked as one. -/
theorem of_identity? {i : e.Position} (h : e.identity? = some i) :
    (e.field i).identity = true ∧ (e.field i).isPersistable = true := by
  simpa using List.find?_some h

theorem HasIntegerKeys.kind_eq (he : e.HasIntegerKeys) {i : e.Position}
    (h : e.identity? = some i) : (e.field i).kind = .int :=
  he i (of_identity? h).1

theorem identityColumn?_eq {i : e.Position} (h : e.identity? = some i) :
    e.identityColumn? = some (e.columnOf i) := by
  rw [identityColumn?, h]
  exact column_eq_of_isPersistable (of_identity? h).2

end Entity

end RecordLayer
