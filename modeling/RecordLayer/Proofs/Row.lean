import RecordLayer.Proofs.Entity
import RecordLayer.Row

/-!
# Rows that are read as records

A row shows the cells of a record if it lists every stored column, in any order and letter case
and among columns that no field has (`Shows`).  Reading goes through the row column by column:
what it has read agrees with the cells so far, and at the end with all of them
(`scan_of_shows`, `content?_of_scanOver`); one cell that does not fit its field is enough to refuse
the row (`content?_isSome_of_scan`).
-/

namespace RecordLayer

/-- The content that a cell gives a field of the kind. -/
def Cell.content? (k : Kind) (cell : Cell) : Option k.Content :=
  match cell.read with
  | .ok v => k.read? v
  | .error _ => none

namespace Row
variable {e : Entity}

theorem scanCell_of_none {column : String} (h : e.byColumn? column = none) (r : Record e)
    (cell : Cell) : scanCell r column cell = .ok r := by
  rw [scanCell, h]

/-- A cell of a field's column whose value was read is assigned to the field. -/
theorem scanCell_of_read {column : String} {i : e.Position} {cell : Cell} {v : Value}
    (h : e.byColumn? column = some i) (hv : cell.read = .ok v) (r : Record e) :
    scanCell r column cell = (r.assign? i v).elim
      (.error (.decode column ("value does not fit a " ++ (e.field i).kind.name ++ " field")))
      .ok := by
  have hdecode : cell.decode column = pure v := by
    rw [Cell.decode, hv]
    rfl
  unfold scanCell
  rw [h]
  dsimp only
  rw [hdecode, pure_bind]
  cases r.assign? i v <;> rfl

theorem scanCell_of_content? {column : String} {i : e.Position} {cell : Cell}
    {x : (e.field i).kind.Content} (h : e.byColumn? column = some i)
    (hx : cell.content? (e.field i).kind = some x) (r : Record e) :
    scanCell r column cell = .ok (r.set i x) := by
  rw [Cell.content?] at hx
  cases hv : cell.read with
  | error message => simp [hv] at hx
  | ok v =>
    rw [hv] at hx
    have hread : (e.field i).kind.read? v = some x := hx
    rw [scanCell_of_read h hv, Record.assign?, hread, Option.map_some, Option.elim_some]

theorem content?_isSome_of_scanCell {column : String} {i : e.Position} {cell : Cell}
    (h : e.byColumn? column = some i) {r r' : Record e} (hok : scanCell r column cell = .ok r') :
    (cell.content? (e.field i).kind).isSome = true := by
  rw [Cell.content?]
  cases hv : cell.read with
  | error message =>
    have hdecode : cell.decode column = .error (.decode column message) := by
      rw [Cell.decode, hv]
      rfl
    unfold scanCell at hok
    rw [h] at hok
    dsimp only at hok
    rw [hdecode] at hok
    cases hok
  | ok v =>
    rw [scanCell_of_read h hv, Record.assign?] at hok
    cases hread : (e.field i).kind.read? v with
    | some x => simp [hread]
    | none =>
      rw [hread] at hok
      cases hok

/-! ### Reading column by column -/

/-- A stretch of a row whose cells agree with a record is read, and gives each field that it lists,
or that agreed before, the content of that record. -/
theorem foldlM_scanCell {row : Row} {x : Record e} (r : Record e)
    (hagree : ∀ entry ∈ row, ∀ i, e.byColumn? entry.1 = some i →
      entry.2.content? (e.field i).kind = some (x.content i)) :
    ∃ r', row.foldlM (fun r (entry : String × Cell) => scanCell r entry.1 entry.2) r = .ok r' ∧
      ∀ i, (r.content i = x.content i ∨ ∃ entry ∈ row, e.byColumn? entry.1 = some i) →
        r'.content i = x.content i := by
  induction row generalizing r with
  | nil =>
    refine ⟨r, rfl, fun i hi => ?_⟩
    rcases hi with hi | ⟨entry, hmem, -⟩
    · exact hi
    · cases hmem
  | cons entry row ih =>
    have hrest : ∀ entry ∈ row, ∀ i, e.byColumn? entry.1 = some i →
        entry.2.content? (e.field i).kind = some (x.content i) := fun entry hmem =>
      hagree entry (List.mem_cons_of_mem _ hmem)
    cases hcolumn : e.byColumn? entry.1 with
    | none =>
      obtain ⟨r', hok, hcontent⟩ := ih r hrest
      refine ⟨r', ?_, fun i hi => hcontent i ?_⟩
      · rw [List.foldlM_cons, scanCell_of_none hcolumn]
        exact hok
      · rcases hi with hi | ⟨entry', hmem, hentry⟩
        · exact .inl hi
        · rcases List.mem_cons.1 hmem with rfl | hmem
          · rw [hcolumn] at hentry
            cases hentry
          · exact .inr ⟨entry', hmem, hentry⟩
    | some j =>
      have hx := hagree entry List.mem_cons_self j hcolumn
      obtain ⟨r', hok, hcontent⟩ := ih (r.set j (x.content j)) hrest
      refine ⟨r', ?_, fun i hi => hcontent i ?_⟩
      · rw [List.foldlM_cons, scanCell_of_content? hcolumn hx]
        exact hok
      · by_cases hij : i = j
        · subst hij
          exact .inl (Record.content_set_self _ _ _)
        · rcases hi with hi | ⟨entry', hmem, hentry⟩
          · exact .inl ((Record.content_set_of_ne hij).trans hi)
          · rcases List.mem_cons.1 hmem with rfl | hmem
            · exact absurd (Option.some.inj (hentry.symm.trans hcolumn)) hij
            · exact .inr ⟨entry', hmem, hentry⟩

/-- Every cell of a field's column in a row that is read fits the field. -/
theorem content?_isSome_of_foldlM {row : Row} {r r' : Record e}
    (hok : row.foldlM (fun r (entry : String × Cell) => scanCell r entry.1 entry.2) r = .ok r') :
    ∀ entry ∈ row, ∀ i, e.byColumn? entry.1 = some i →
      (entry.2.content? (e.field i).kind).isSome = true := by
  induction row generalizing r with
  | nil => intro entry hmem; cases hmem
  | cons entry row ih =>
    rw [List.foldlM_cons] at hok
    cases hfirst : scanCell r entry.1 entry.2 with
    | error failure =>
      rw [hfirst] at hok
      cases hok
    | ok mid =>
      rw [hfirst] at hok
      intro entry' hmem i hi
      rcases List.mem_cons.1 hmem with rfl | hmem
      · exact content?_isSome_of_scanCell hi hfirst
      · exact ih hok entry' hmem i hi

/-! ### Rows that show a record's cells -/

/-- Contents found field by field are those of one record. -/
theorem exists_record {holds : (i : e.Position) → (e.field i).kind.Content → Prop}
    (h : ∀ i, (e.field i).isPersistable = true → ∃ x, holds i x) :
    ∃ r : Record e, ∀ i, (e.field i).isPersistable = true → holds i (r.content i) := by
  have hchoice : ∀ i, ∃ x, (e.field i).isPersistable = true → holds i x := by
    intro i
    by_cases hi : (e.field i).isPersistable = true
    · obtain ⟨x, hx⟩ := h i hi
      exact ⟨x, fun _ => hx⟩
    · exact ⟨(e.field i).kind.empty, fun hi' => absurd hi' hi⟩
  obtain ⟨content, hcontent⟩ := Classical.axiomOfChoice hchoice
  exact ⟨⟨content⟩, hcontent⟩

/-- The row lists every stored column of the entity with its cell, in any order and letter case;
other columns may stand among them. -/
structure Shows (e : Entity) (cells : e.Position → Cell) (row : Row) : Prop where
  complete : ∀ i, (e.field i).isPersistable = true →
    ∃ entry ∈ row, sameName (e.columnOf i) entry.1 = true
  faithful : ∀ entry ∈ row, ∀ i, (e.field i).isPersistable = true →
    sameName (e.columnOf i) entry.1 = true → entry.2 = cells i

/-- The row that lists the stored columns in the order of the fields. -/
def listed (e : Entity) (cells : e.Position → Cell) : Row :=
  e.persistable.map fun i => (e.columnOf i, cells i)

theorem shows_listed (he : e.IsTabular) (cells : e.Position → Cell) :
    Shows e cells (listed e cells) := by
  refine ⟨fun i hi => ⟨_, List.mem_map.2 ⟨i, Entity.mem_persistable.2 hi, rfl⟩, sameName_refl _⟩,
    fun entry hmem i hi hname => ?_⟩
  obtain ⟨j, hj, rfl⟩ := List.mem_map.1 hmem
  rw [he.distinct i j _ (Entity.column_eq_of_isPersistable hi) _
    (Entity.column_eq_of_isPersistable (Entity.mem_persistable.1 hj)) hname]

/-- A row is read over a record: its cells give the stored fields, and the others stay. -/
theorem scanOver_of_shows (he : e.HasDistinctColumns) {cells : e.Position → Cell} {row : Row}
    (hrow : Shows e cells row) {x : Record e}
    (hx : ∀ i, (e.field i).isPersistable = true →
      (cells i).content? (e.field i).kind = some (x.content i)) (initial : Record e) :
    ∃ r, scanOver initial row = .ok r ∧
      (∀ i, (e.field i).isPersistable = true → r.content i = x.content i) ∧
      ∀ i, (e.field i).isPersistable = false → r.content i = initial.content i := by
  -- What is read is a record of both: stored fields as in `x`, transient ones as at first.
  let y : Record e :=
    ⟨fun i => if (e.field i).isPersistable then x.content i else initial.content i⟩
  have hstored : ∀ i, (e.field i).isPersistable = true → y.content i = x.content i :=
    fun i hi => if_pos hi
  have htransient : ∀ i, (e.field i).isPersistable = false → y.content i = initial.content i :=
    fun i hi => if_neg (hi ▸ Bool.false_ne_true)
  have hagree : ∀ entry ∈ row, ∀ i, e.byColumn? entry.1 = some i →
      entry.2.content? (e.field i).kind = some (y.content i) := by
    intro entry hmem i hi
    obtain ⟨hi', hname⟩ := Entity.of_byColumn? hi
    rw [hrow.faithful entry hmem i hi' hname, hx i hi', hstored i hi']
  obtain ⟨r, hok, hcontent⟩ := foldlM_scanCell initial hagree
  refine ⟨r, hok, fun i hi => ?_, fun i hi => ?_⟩
  · obtain ⟨entry, hmem, hname⟩ := hrow.complete i hi
    rw [hcontent i (.inr ⟨entry, hmem, he.byColumn?_eq_some hi hname⟩), hstored i hi]
  · rw [hcontent i (.inl (htransient i hi).symm), htransient i hi]

/-- **A row is read as the record that its cells stand for.** -/
theorem scan_of_shows (he : e.IsTabular) {cells : e.Position → Cell} {row : Row}
    (hrow : Shows e cells row) {x : Record e}
    (hx : ∀ i, (e.field i).isPersistable = true →
      (cells i).content? (e.field i).kind = some (x.content i)) :
    ∃ r, scan e row = .ok r ∧ ∀ i, (e.field i).isPersistable = true →
      r.content i = x.content i := by
  obtain ⟨r, hok, hcontent, -⟩ :=
    scanOver_of_shows he.hasDistinctColumns hrow hx (Record.empty e)
  exact ⟨r, hok, hcontent⟩

/-- Every cell of a row that is read fits its field. -/
theorem content?_isSome_of_scanOver (he : e.HasDistinctColumns) {cells : e.Position → Cell}
    {row : Row} (hrow : Shows e cells row) {initial r : Record e}
    (hok : scanOver initial row = .ok r) {i : e.Position} (hi : (e.field i).isPersistable = true) :
    ((cells i).content? (e.field i).kind).isSome = true := by
  obtain ⟨entry, hmem, hname⟩ := hrow.complete i hi
  rw [← hrow.faithful entry hmem i hi hname]
  exact content?_isSome_of_foldlM hok entry hmem i (he.byColumn?_eq_some hi hname)

theorem content?_isSome_of_scan (he : e.IsTabular) {cells : e.Position → Cell} {row : Row}
    (hrow : Shows e cells row) {r : Record e} (hok : scan e row = .ok r) {i : e.Position}
    (hi : (e.field i).isPersistable = true) :
    ((cells i).content? (e.field i).kind).isSome = true :=
  content?_isSome_of_scanOver he.hasDistinctColumns hrow hok hi

/-- What was read is what the cells stand for. -/
theorem content?_of_scanOver (he : e.HasDistinctColumns) {cells : e.Position → Cell} {row : Row}
    (hrow : Shows e cells row) {initial r : Record e} (hok : scanOver initial row = .ok r)
    {i : e.Position} (hi : (e.field i).isPersistable = true) :
    (cells i).content? (e.field i).kind = some (r.content i) := by
  obtain ⟨x, hx⟩ := exists_record fun i hi =>
    Option.isSome_iff_exists.1 (content?_isSome_of_scanOver he hrow hok hi)
  obtain ⟨r', hok', hcontent, -⟩ := scanOver_of_shows he hrow hx initial
  obtain rfl := Except.ok.inj (hok.symm.trans hok')
  rw [hx i hi, hcontent i hi]

end Row

end RecordLayer
