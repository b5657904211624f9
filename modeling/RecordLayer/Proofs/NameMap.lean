import Mathlib.Data.List.Nodup
import RecordLayer.NameMap

/-!
# Name maps of lists

What a map that is built from a list of entries holds: the entry of a name that occurs once, and, if
all entries hold one value, that value for each name that occurs.  If no name occurs twice it holds
the entries of the list and no others, in another order.  It is empty only if the list is.
-/

namespace RecordLayer.NameMap
variable {α : Type} {entries : List (String × α)} {name : String} {v : α}

theorem get?_foldl_insert_of_not_mem (h : name ∉ entries.map (·.1)) (m : NameMap α) :
    (entries.foldl (fun m entry => m.insert entry.1 entry.2) m).get? name = m.get? name := by
  induction entries generalizing m with
  | nil => rfl
  | cons entry rest ih =>
    obtain ⟨hne, hnot⟩ := not_or.1 (mt List.mem_cons.2 h)
    rw [List.foldl_cons, ih hnot, get?_insert, if_neg hne]

/-- A name that has entries gets the value of one of them. -/
theorem exists_get?_foldl_insert (entries : List (String × α)) (m : NameMap α)
    (h : name ∈ entries.map (·.1)) : ∃ w, (name, w) ∈ entries ∧
      (entries.foldl (fun m entry => m.insert entry.1 entry.2) m).get? name = some w := by
  induction entries generalizing m with
  | nil => cases h
  | cons entry rest ih =>
    rw [List.foldl_cons]
    by_cases hrest : name ∈ rest.map (·.1)
    · obtain ⟨w, hmem, hw⟩ := ih (m.insert entry.1 entry.2) hrest
      exact ⟨w, List.mem_cons_of_mem _ hmem, hw⟩
    · obtain rfl : name = entry.1 := (List.mem_cons.1 h).resolve_right hrest
      refine ⟨entry.2, List.mem_cons_self, ?_⟩
      rw [get?_foldl_insert_of_not_mem hrest, get?_insert, if_pos rfl]

theorem get?_ofList (hdistinct : (entries.map (·.1)).Nodup) (hmem : (name, v) ∈ entries) :
    (ofList entries).get? name = some v := by
  obtain ⟨w, hw, hget⟩ := exists_get?_foldl_insert entries ∅ (List.mem_map_of_mem hmem)
  have hsame : (name, w) = (name, v) := List.inj_on_of_nodup_map hdistinct hw hmem rfl
  rw [ofList, hget, (Prod.mk.inj hsame).2]

/-- Where all entries hold one value, a name has that value if it has an entry. -/
theorem get?_ofList_const (hconst : ∀ entry ∈ entries, entry.2 = v) (name : String) (w : α) :
    (ofList entries).get? name = some w ↔ name ∈ entries.map (·.1) ∧ w = v := by
  by_cases hname : name ∈ entries.map (·.1)
  · obtain ⟨u, hmem, hget⟩ := exists_get?_foldl_insert entries ∅ hname
    obtain rfl : u = v := hconst _ hmem
    rw [ofList, hget, Option.some.injEq]
    exact ⟨fun h => ⟨hname, h.symm⟩, fun h => h.2.symm⟩
  · rw [ofList, get?_foldl_insert_of_not_mem hname, get?_empty]
    exact ⟨fun h => absurd h.symm (Option.some_ne_none w), fun h => absurd h.1 hname⟩

theorem insertEntry_perm (h : name ∉ entries.map (·.1)) :
    (insertEntry name v entries).Perm ((name, v) :: entries) := by
  induction entries with
  | nil => exact .refl _
  | cons entry rest ih =>
    obtain ⟨hne, hrest⟩ := not_or.1 (mt List.mem_cons.2 h)
    rw [insertEntry, if_neg hne]
    split
    · exact .refl _
    · exact ((ih hrest).cons entry).trans (.swap _ _ _)

theorem foldl_insert_perm (m : NameMap α) (h : ((m.entries ++ entries).map (·.1)).Nodup) :
    (entries.foldl (fun m entry => m.insert entry.1 entry.2) m).entries.Perm
      (m.entries ++ entries) := by
  induction entries generalizing m with
  | nil => simp
  | cons entry rest ih =>
    have hmiddle : (m.entries ++ entry :: rest).Perm (entry :: (m.entries ++ rest)) :=
      List.perm_middle
    have hdistinct := (hmiddle.map (·.1)).nodup_iff.1 h
    rw [List.map_cons, List.map_append, List.nodup_cons] at hdistinct
    have hinsert : (m.insert entry.1 entry.2).entries.Perm (entry :: m.entries) :=
      insertEntry_perm fun hmem => hdistinct.1 (List.mem_append_left _ hmem)
    have happend := (hinsert.append_right rest).trans hmiddle.symm
    exact (ih _ ((happend.map (·.1)).nodup_iff.2 h)).trans happend

/-- A list of entries of different names has each of them in its map, and no other. -/
theorem entries_ofList_perm (h : (entries.map (·.1)).Nodup) :
    (ofList entries).entries.Perm entries :=
  foldl_insert_perm ∅ h

theorem isEmpty_insert (m : NameMap α) (name : String) (v : α) :
    (m.insert name v).isEmpty = false := by
  change (insertEntry name v m.entries).isEmpty = false
  cases m.entries with
  | nil => rfl
  | cons entry rest =>
    rw [insertEntry]
    split
    · rfl
    · split <;> rfl

theorem eq_nil_of_isEmpty_ofList {entries : List (String × α)}
    (h : (ofList entries).isEmpty = true) : entries = [] := by
  rcases List.eq_nil_or_concat entries with rfl | ⟨rest, entry, rfl⟩
  · rfl
  · rw [ofList, List.concat_eq_append, List.foldl_append, List.foldl_cons, List.foldl_nil,
      isEmpty_insert] at h
    cases h

end RecordLayer.NameMap
