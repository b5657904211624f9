import RecordLayer.Proofs.Assigning
import RecordLayer.Proofs.Difference
import RecordLayer.Proofs.EntityStore
import RecordLayer.Proofs.Updating

/-!
# Changesets that are replayed

A changeset says twice what a comparison has taken over: in its changes, in declaration order, and
in its params, by column.  Either is all there is to it: assigning the params to the record as it
was, each to the field of its column, gives the record as it stands, in whichever order they are
assigned (`diff_replays`).  A param finds its field because no two fields share a column, and the
order does not count because each assignment is a copy of one field.
-/

namespace RecordLayer

/-- What is put in another order after a map could have been before. -/
theorem exists_map_of_perm {α β : Type} {f : α → β} {l : List α} {entries : List β}
    (h : entries.Perm (l.map f)) : ∃ others : List α, entries = others.map f ∧ others.Perm l := by
  have hforall : List.Forall₂ (fun b a => b = f a) (l.map f) l :=
    List.forall₂_map_left_iff.2 (List.forall₂_same.2 fun _ _ => rfl)
  obtain ⟨others, hothers, hperm⟩ := List.perm_comp_forall₂ h hforall
  rw [← List.forall₂_map_right_iff, List.forall₂_eq_eq_eq] at hothers
  exact ⟨others, hothers, hperm⟩

namespace Record
variable {e : Entity} {mode : DiffMode} {current requested : Record e}

/-- The record with the field of a column set to a value, if there is such a field and the value
fits. -/
def assignColumn? (r : Record e) (entry : String × Value) : Option (Record e) :=
  (e.byColumn? entry.1).bind fun i => r.assign? i entry.2

/-- The record with the fields of columns set to values, one after another. -/
def replay? (r : Record e) (entries : List (String × Value)) : Option (Record e) :=
  entries.foldlM assignColumn? r

/-- A field's column with the value asked for. -/
def entry (requested : Record e) (i : e.Position) : String × Value :=
  (e.columnOf i, requested.value i)

/-- Assigning a field's value to its column is copying the field. -/
theorem assignColumn?_entry (he : e.HasDistinctColumns) {i : e.Position}
    (hi : (e.field i).isPersistable = true) (r requested : Record e) :
    r.assignColumn? (requested.entry i) = some (r.copyFrom requested i) := by
  have hfound : e.byColumn? (requested.entry i).1 = some i :=
    he.byColumn?_eq_some hi (sameName_refl _)
  rw [assignColumn?, hfound, Option.bind_some, entry, assign?_eq, assign_value]
  rfl

theorem replay?_map_entry (he : e.HasDistinctColumns) {positions : List e.Position}
    (h : ∀ i ∈ positions, (e.field i).isPersistable = true) (r requested : Record e) :
    r.replay? (positions.map requested.entry) =
      some (positions.foldl (·.copyFrom requested ·) r) := by
  induction positions generalizing r with
  | nil => rfl
  | cons i rest ih =>
    obtain ⟨hi, hrest⟩ := List.forall_mem_cons.1 h
    rw [replay?, List.map_cons, List.foldlM_cons, assignColumn?_entry he hi]
    exact ih hrest _

/-- The order in which fields are copied does not count. -/
theorem foldl_copyFrom_perm {positions others : List e.Position} (h : positions.Perm others) :
    positions.foldl (·.copyFrom requested ·) current =
      others.foldl (·.copyFrom requested ·) current := by
  ext i
  by_cases hi : i ∈ positions
  · rw [content_copyAll_of_mem hi, content_copyAll_of_mem (h.mem_iff.1 hi)]
  · rw [content_copyAll_of_not_mem hi, content_copyAll_of_not_mem (mt h.mem_iff.2 hi)]

/-- Nor does the order in which they are assigned. -/
theorem replay?_of_perm (he : e.HasDistinctColumns) {positions : List e.Position}
    (h : ∀ i ∈ positions, (e.field i).isPersistable = true) {entries : List (String × Value)}
    (hperm : entries.Perm (positions.map requested.entry)) :
    current.replay? entries = some (positions.foldl (·.copyFrom requested ·) current) := by
  obtain ⟨others, rfl, hothers⟩ := exists_map_of_perm hperm
  rw [replay?_map_entry he fun i hi => h i (hothers.mem_iff.1 hi), foldl_copyFrom_perm hothers]

/-- Each change is bound under its column, and nothing else is. -/
theorem params_changeset_perm (he : e.HasDistinctColumns) :
    (changeset mode current requested).params.entries.Perm
      ((contributing mode current requested).map requested.entry) := by
  have hentries : (changeset mode current requested).params =
      .ofList ((contributing mode current requested).map requested.entry) := by
    rw [changeset, Changeset.ofChanges, List.map_map]
    rfl
  rw [hentries]
  refine NameMap.entries_ofList_perm ?_
  rw [List.map_map]
  refine List.Nodup.map_on (fun i hi j hj hij => ?_) nodup_contributing
  obtain ⟨hi, -⟩ := isPersistable_of_contributes (mem_contributing.1 hi)
  obtain ⟨hj, -⟩ := isPersistable_of_contributes (mem_contributing.1 hj)
  refine he i j _ (Entity.column_eq_of_isPersistable hi) _ (Entity.column_eq_of_isPersistable hj) ?_
  rw [show e.columnOf i = e.columnOf j from hij]
  exact sameName_refl _

/-- Keys and transient fields never contribute. -/
theorem not_mem_contributing {i : e.Position}
    (h : (e.field i).identity = true ∨ (e.field i).column = none) :
    i ∉ contributing mode current requested := by
  intro hmem
  obtain ⟨hstored, hkey⟩ := (isListing_contributing mode current requested).2 i hmem
  rcases h with h | h
  · rw [h] at hkey
    cases hkey
  · rw [Field.isPersistable, h] at hstored
    cases hstored

/-- The fields that do not contribute are left as they are. -/
theorem content_merged_of_not_mem {i : e.Position} (h : i ∉ contributing mode current requested) :
    (merged mode current requested).content i = current.content i :=
  content_copyAll_of_not_mem h

/-- The fields that contribute are afterwards as they were asked for. -/
theorem content_merged_of_mem {i : e.Position} (h : i ∈ contributing mode current requested) :
    (merged mode current requested).content i = requested.content i :=
  content_copyAll_of_mem h

/-- **A changeset replays the difference.**  The comparison changes the fields that contribute and
no others, neither a key nor a transient field.  The changes are those of these fields, in
declaration order, each with the value asked for, which is what the record holds afterwards.  The
params are the changes by column, each once, and assigning them to the record as it was, in any
order, succeeds and gives the record as it is left. -/
theorem diff_replays (he : e.HasDistinctColumns) (mode : DiffMode)
    (current requested : Record e) :
    let left := (diff mode current requested).1
    let drawn := (diff mode current requested).2
    let positions := contributing mode current requested
    (left = merged mode current requested ∧ drawn = changeset mode current requested) ∧
      (∀ i, (e.field i).identity = true ∨ (e.field i).column = none ∨ i ∉ positions →
        left.content i = current.content i) ∧
      e.IsListing positions ∧ drawn.changes = positions.map requested.change ∧
      (∀ i ∈ positions, left.content i = requested.content i ∧
        requested.same left i = true) ∧
      drawn.params.entries.Perm (drawn.changes.map fun c => (c.column, c.value)) ∧
      ∀ entries : List (String × Value), entries.Perm drawn.params.entries →
        current.replay? entries = some left := by
  intro left drawn positions
  have hleft : left = merged mode current requested := by simp only [left, diff_eq]
  have hdrawn : drawn = changeset mode current requested := by simp only [drawn, diff_eq]
  have hlisting : e.IsListing positions := isListing_contributing mode current requested
  have hchanges : drawn.changes = positions.map requested.change := by rw [hdrawn]; rfl
  have hentries : drawn.params.entries.Perm (positions.map requested.entry) :=
    hdrawn ▸ params_changeset_perm he
  refine ⟨⟨hleft, hdrawn⟩, fun i hi => ?_, hlisting, hchanges, fun i hi => ?_, ?_,
    fun entries hperm => ?_⟩
  · have hnot : i ∉ positions := by
      rcases hi with hi | hi | hi
      · exact not_mem_contributing (.inl hi)
      · exact not_mem_contributing (.inr hi)
      · exact hi
    rw [hleft, content_merged_of_not_mem hnot]
  · have hcontent : left.content i = requested.content i := hleft ▸ content_merged_of_mem hi
    exact ⟨hcontent, by rw [same, hcontent, Kind.same_refl]⟩
  · rw [hchanges, List.map_map]
    exact hentries
  · rw [hleft]
    exact replay?_of_perm he (fun i hi => (hlisting.2 i hi).1) (hperm.trans hentries)

/-! ### A node that is renamed -/

section
open Catalog

theorem hasDistinctColumns_node : node.HasDistinctColumns := by
  unfold Entity.HasDistinctColumns
  decide

/-- The params bind the name before the type; they are assigned the other way round. -/
theorem diff_replays_renamedNode :
    let left := (diff .update storedNode renamedNode).1
    node.HasDistinctColumns ∧
      (diff .update storedNode renamedNode).2.params.entries =
        [("name", .text "beta"), ("type", .text "master")] ∧
      storedNode.replay? [("type", .text "master"), ("name", .text "beta")] = some left ∧
      left.value ⟨0, by decide⟩ = .int 5 := by
  intro left
  have hparams : (diff .update storedNode renamedNode).2.params.entries =
      [("name", .text "beta"), ("type", .text "master")] := by decide +kernel
  obtain ⟨-, -, -, -, -, -, hreplay⟩ :=
    diff_replays hasDistinctColumns_node .update storedNode renamedNode
  exact ⟨hasDistinctColumns_node, hparams, hreplay _ (hparams ▸ .swap _ _ _), by decide +kernel⟩

end

end Record

end RecordLayer
