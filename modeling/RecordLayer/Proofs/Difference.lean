import RecordLayer.Catalog
import RecordLayer.Proofs.Writing

/-!
# The difference between two records

A record is compared with the one asked for field by field, and each field that has something to
send is taken over on the spot, so that later fields are looked at in a record that has changed
(`diff`).  As a field has no say in another's comparison, that comes to the same as choosing all
fields first and taking them over afterwards (`diff_eq`).

What has been taken over does not differ any more, and what has not been has nothing to send the
second time either: the difference reaches a fixed point after one step (`diff_settles`).  After an
insert that rests on plain integers being zero at the start, since an insert leaves a zero out where
an update would write it.
-/

namespace RecordLayer

namespace Record
variable {e : Entity} {mode : DiffMode} {current requested : Record e}

/-! ### Field by field -/

/-- One field is compared, in the record that the fields before it have left.  If it has something
to send it is taken over and noted. -/
def compareField (mode : DiffMode) (requested : Record e) (sofar : Record e × List Change)
    (i : e.Position) : Record e × List Change :=
  if contributes mode sofar.1 requested i then
    (sofar.1.copyFrom requested i, sofar.2 ++ [requested.change i])
  else sofar

/-- The fields are compared one after another: what becomes of the record, and the changeset. -/
def diff (mode : DiffMode) (current requested : Record e) : Record e × Changeset :=
  let (left, changes) := e.positions.foldl (compareField mode requested) (current, [])
  (left, .ofChanges changes)

/-- Whether a field has something to send depends on nothing else of the record. -/
theorem contributes_congr {r : Record e} {i : e.Position} (h : r.content i = current.content i) :
    contributes mode r requested i = contributes mode current requested i := by
  simp only [contributes, same, h]

/-- The fields still to be compared are as they were at the start. -/
theorem foldl_compareField {positions : List e.Position} (hnodup : positions.Nodup) {r : Record e}
    (hr : ∀ i ∈ positions, r.content i = current.content i) (changes : List Change) :
    let chosen := positions.filter (contributes mode current requested)
    positions.foldl (compareField mode requested) (r, changes) =
      (chosen.foldl (·.copyFrom requested ·) r, changes ++ chosen.map requested.change) := by
  intro chosen
  induction positions generalizing r changes with
  | nil => simp [chosen]
  | cons i rest ih =>
    obtain ⟨hi, hrest⟩ := List.nodup_cons.1 hnodup
    obtain ⟨hri, hr⟩ := List.forall_mem_cons.1 hr
    rw [List.foldl_cons, compareField, contributes_congr hri]
    cases hc : contributes mode current requested i with
    | true =>
      have hstill : ∀ j ∈ rest, (r.copyFrom requested i).content j = current.content j :=
        fun j hj => by rw [copyFrom, content_set_of_ne (ne_of_mem_of_not_mem hj hi), hr j hj]
      rw [if_pos rfl, ih hrest hstill, show chosen = i :: _ from List.filter_cons_of_pos hc,
        List.foldl_cons, List.map_cons, List.append_assoc, List.singleton_append]
    | false =>
      rw [if_neg Bool.false_ne_true, ih hrest hr,
        show chosen = _ from List.filter_cons_of_neg (by simp [hc])]

/-- Comparing field by field is choosing the fields first. -/
theorem diff_eq (mode : DiffMode) (current requested : Record e) :
    diff mode current requested =
      (merged mode current requested, changeset mode current requested) := by
  rw [diff, Entity.positions, foldl_compareField (List.nodup_finRange _) fun _ _ => rfl]
  rfl

theorem diff_of_contributing_eq_nil (h : contributing mode current requested = []) :
    diff mode current requested = (current, ⟨[], ∅⟩) := by
  rw [diff_eq, merged, changeset, h]
  rfl

/-! ### What is left to send -/

/-- Fields that agree have the same to send; keys have nothing. -/
theorem contributing_congr {r : Record e}
    (h : ∀ i, (e.field i).identity = false → r.content i = current.content i) :
    contributing mode r requested = contributing mode current requested := by
  refine List.filter_congr fun i _ => ?_
  cases hi : (e.field i).identity with
  | true => simp [contributes, hi]
  | false => exact contributes_congr (h i hi)

/-- What has been taken over does not differ any more. -/
theorem contributing_merged :
    contributing .update (merged mode current requested) requested =
      (contributing .update current requested).filter
        fun i => !contributes mode current requested i := by
  rw [contributing, contributing, List.filter_filter]
  refine List.filter_congr fun i _ => ?_
  have hc := content_merged mode current requested i
  cases hi : contributes mode current requested i with
  | true =>
    rw [hi, if_pos rfl] at hc
    simp [contributes, same, hc, Kind.same_refl]
  | false =>
    rw [hi, if_neg Bool.false_ne_true] at hc
    simp [contributes, same, hc]

theorem contributing_merged_self :
    contributing .update (merged .update current requested) requested = [] := by
  rw [contributing_merged, List.filter_eq_nil_iff]
  intro i hi
  simpa using mem_contributing.1 hi

/-- Plain integers are zero. -/
def HasZeroIntegers (r : Record e) : Prop :=
  ∀ i, (e.field i).kind = .int → r.value i = .int 0

theorem hasZeroIntegers_empty (e : Entity) : (empty e).HasZeroIntegers := by
  have hzero : ∀ k : Kind, k = .int → k.toValue k.empty = .int 0 := by
    rintro _ rfl
    rfl
  exact fun i => hzero (e.field i).kind

/-- A plain integer that is zero is the same as one that is blank. -/
theorem HasZeroIntegers.same (h : current.HasZeroIntegers) {i : e.Position}
    (hkind : (e.field i).kind = .int) (hblank : requested.isBlank i = true) :
    current.same requested i = true := by
  have hsame : ∀ (k : Kind) (x y : k.Content), k = .int → k.toValue x = .int 0 →
      (k.toValue y).isBlank = true → k.same x y = true := by
    rintro _ x y rfl hx hy
    obtain rfl : x = 0 := Value.int.inj hx
    obtain rfl : y = 0 := eq_of_beq hy
    rfl
  exact hsame _ _ _ hkind (h i hkind) hblank

/-- An insert has left out only what an update would not write. -/
theorem contributing_merged_insert (h : current.HasZeroIntegers) :
    contributing .update (merged .insert current requested) requested = [] := by
  rw [contributing_merged, List.filter_eq_nil_iff]
  intro i hi hnot
  have hupdate := mem_contributing.1 hi
  simp only [contributes, Bool.and_eq_true, Bool.not_eq_true', Bool.or_eq_true,
    beq_iff_eq] at hupdate
  obtain ⟨hstored, hdiffers, hgiven⟩ := hupdate
  have hblank : requested.isBlank i = true := by simpa [contributes, hstored] using hnot
  have hkind : (e.field i).kind = .int := hgiven.resolve_right (by simp [hblank])
  rw [h.same hkind hblank] at hdiffers
  cases hdiffers

/-- Storing the key that a backend assigned leaves all but the key as it was. -/
theorem content_identified_of_not_identity (r : Record e) (result : InsertResult)
    {i : e.Position} (hi : (e.field i).identity = false) :
    (Context.identified r result).content i = r.content i := by
  cases hkey : e.identity? with
  | none => rw [Context.identified, hkey]
  | some key =>
    refine Context.content_identified_of_ne hkey result r fun heq => ?_
    rw [heq, (Entity.of_identity? hkey).1] at hi
    cases hi

/-- **The difference settles at once.**  An update-mode comparison with a record that an update-mode
comparison has just been made with finds nothing and leaves the record as it is.  So does one that
follows an insert-mode comparison, if plain integers were zero before it, whatever has been stored
in the keys in between, such as the key that the backend assigned. -/
theorem diff_settles (requested : Record e) :
    (∀ current : Record e,
      let left := (diff .update current requested).1
      diff .update left requested = (left, ⟨[], ∅⟩)) ∧
    ∀ initial : Record e, initial.HasZeroIntegers →
      let left := (diff .insert initial requested).1
      (∀ stored : Record e,
        (∀ i, (e.field i).identity = false → stored.content i = left.content i) →
          diff .update stored requested = (stored, ⟨[], ∅⟩)) ∧
      ∀ result : InsertResult,
        let stored := Context.identified left result
        diff .update stored requested = (stored, ⟨[], ∅⟩) := by
  constructor
  · intro current left
    have hleft : left = merged .update current requested := by simp only [left, diff_eq]
    exact diff_of_contributing_eq_nil (hleft ▸ contributing_merged_self)
  · intro initial hinitial left
    have hleft : left = merged .insert initial requested := by simp only [left, diff_eq]
    have hstored : ∀ stored : Record e,
        (∀ i, (e.field i).identity = false → stored.content i = left.content i) →
          diff .update stored requested = (stored, ⟨[], ∅⟩) := by
      intro stored hagrees
      apply diff_of_contributing_eq_nil
      rw [contributing_congr hagrees, hleft, contributing_merged_insert hinitial]
    exact ⟨hstored, fun result =>
      hstored _ fun i hi => content_identified_of_not_identity left result hi⟩

/-! ### A job that is inserted -/

section
open Catalog

/-- A job asked for on node 7, of a user that is given as zero. -/
def zeroUserJob : Record job :=
  (newJob 7 default).put "source_user_id" (.int 0)

/-- The user is left out by the insert, and still differs afterwards, yet is not written. -/
theorem diff_settles_zeroUserJob :
    let left := (diff .insert (empty job) zeroUserJob).1
    let stored := Context.identified left ⟨1, some 12⟩
    (empty job).HasZeroIntegers ∧
      job.positions.map stored.value = [.int 12, .int 7, .null, .timestamp default] ∧
      zeroUserJob.value ⟨2, by decide⟩ = .int 0 ∧
      diff .update stored zeroUserJob = (stored, ⟨[], ∅⟩) := by
  intro left stored
  have hzero := hasZeroIntegers_empty job
  obtain ⟨-, hassigned⟩ := (diff_settles zeroUserJob).2 (empty job) hzero
  exact ⟨hzero, by decide +kernel, by decide +kernel, hassigned ⟨1, some 12⟩⟩

end

end Record

end RecordLayer
