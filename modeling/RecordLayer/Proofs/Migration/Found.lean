import RecordLayer.Migration.Migrator
import RecordLayer.Proofs.Migration.Naming

/-!
# Migrations — Files that are found

The up files of a directory come in the order of their numbers, and of their names among those of
one number, whatever the order of the listing (`pairwise_of_upFiles`, `perm_of_upFiles`).  The base
is the first of them.  No number is negative, so that a file above the base has a number that is not
zero, and a record of it leaves nothing out.
-/

namespace RecordLayer.Migration

namespace FileName

theorem zero_le_of_ofText? {s : String} {label : FileName} (h : ofText? s = some label) :
    0 ≤ label.number := by
  obtain ⟨n, -, -, hvalue⟩ := ofText?_eq_some_iff.1 h
  rw [Int64.le_iff_toInt_le, hvalue]
  exact Int.natCast_nonneg n

end FileName

namespace File
variable {direction : Direction} {item : String × Item} {f : File}

theorem label_of_ofItem? (h : ofItem? direction item = some f) :
    FileName.ofText? f.fileName = some f.label := by
  obtain ⟨fileName, kind⟩ := item
  cases kind with
  | folder => cases h
  | file content =>
    simp only [ofItem?, Option.bind_eq_bind] at h
    obtain ⟨label, hlabel, h⟩ := Option.bind_eq_some_iff.1 h
    split at h
    · cases h
      exact hlabel
    · cases h

theorem zero_le_number (h : ofItem? direction item = some f) : 0 ≤ f.number :=
  FileName.zero_le_of_ofText? (label_of_ofItem? h)

theorem fileName_ne_empty (h : ofItem? direction item = some f) : f.fileName ≠ "" := by
  intro hempty
  have hlabel := label_of_ofItem? h
  rw [hempty] at hlabel
  cases hlabel

/-! ### The order of files -/

theorem le_iff {a b : File} : a.le b = true ↔
    a.number < b.number ∨ a.number = b.number ∧ a.label.name ≤ b.label.name := by
  simp [le]

theorem number_le_of_le {a b : File} (h : a.le b = true) : a.number ≤ b.number := by
  rcases le_iff.1 h with h | ⟨h, -⟩
  · exact Int64.le_of_lt h
  · exact Int64.le_of_eq h

theorem le_trans {a b c : File} (hab : a.le b = true) (hbc : b.le c = true) : a.le c = true := by
  rw [le_iff] at *
  rcases hab with hab | ⟨hab, hname⟩
  · exact .inl (Int64.lt_of_lt_of_le hab (number_le_of_le (le_iff.2 hbc)))
  · rcases hbc with hbc | ⟨hbc, hname'⟩
    · exact .inl (hab ▸ hbc)
    · exact .inr ⟨hab.trans hbc, String.le_trans hname hname'⟩

theorem le_refl (a : File) : a.le a = true :=
  le_iff.2 (.inr ⟨rfl, String.le_refl _⟩)

theorem le_total (a b : File) : (a.le b || b.le a) = true := by
  rw [Bool.or_eq_true, le_iff, le_iff]
  by_cases hlt : a.number < b.number
  · exact .inl (.inl hlt)
  · by_cases hgt : b.number < a.number
    · exact .inr (.inl hgt)
    · have heq := Int64.le_antisymm (Int64.not_lt.1 hgt) (Int64.not_lt.1 hlt)
      rcases String.le_total a.label.name b.label.name with hname | hname
      · exact .inl (.inr ⟨heq, hname⟩)
      · exact .inr (.inr ⟨heq.symm, hname⟩)

end File

/-- Files that come before each other tie. -/
theorem File.tie {a b : File} (hab : a.le b = true) (hba : b.le a = true) :
    a.number = b.number ∧ a.label.name = b.label.name := by
  have hnumber := Int64.le_antisymm (number_le_of_le hab) (number_le_of_le hba)
  refine ⟨hnumber, ?_⟩
  rw [le_iff, hnumber] at hab hba
  have hname := (hab.resolve_left Int64.lt_irrefl).2
  have hname' := (hba.resolve_left Int64.lt_irrefl).2
  exact String.le_antisymm hname hname'

/-- The up files of a directory, in the order of its listing. -/
def Directory.listedUp (d : Directory) : List File :=
  (d.items?.getD []).filterMap (File.ofItem? .up)

namespace Directory

/-- No up file of the directory comes before the base. -/
def IsBase (d : Directory) (base : File) : Prop :=
  base ∈ d.listedUp ∧ ∀ f ∈ d.listedUp, base.le f = true

theorem zero_le_number {d : Directory} {f : File} (h : f ∈ d.listedUp) : 0 ≤ f.number := by
  obtain ⟨item, -, hitem⟩ := List.mem_filterMap.1 h
  exact File.zero_le_number hitem

end Directory

namespace Migrator
variable {m : Migrator} {files : List File} {base : File}

/-- The up files are those listed, in order; the base is the first. -/
theorem upFiles_eq_ok_iff : m.upFiles = .ok (files, base) ↔
    files = m.directory.listedUp.mergeSort File.le ∧ ∃ rest, files = base :: rest := by
  cases hitems : m.directory.items? with
  | none =>
    have herror : m.upFiles = .error (.io "No such file or directory (os error 2)") := by
      rw [upFiles, Directory.discover, hitems]
      rfl
    rw [herror, Directory.listedUp, hitems, Option.getD_none, List.filterMap_nil,
      List.mergeSort_nil]
    refine ⟨(fun h => by cases h), ?_⟩
    rintro ⟨rfl, rest, h⟩
    cases h
  | some items =>
    rw [upFiles, Directory.discover, Directory.listedUp, hitems, Option.getD_some]
    cases hsorted : (items.filterMap (File.ofItem? .up)).mergeSort File.le with
    | nil =>
      simp only [hsorted]
      refine ⟨(fun h => by cases h), ?_⟩
      rintro ⟨rfl, rest, h⟩
      cases h
    | cons f rest =>
      simp only [hsorted]
      refine ⟨fun h => ?_, ?_⟩
      · cases h
        exact ⟨rfl, rest, rfl⟩
      · rintro ⟨rfl, rest', h⟩
        cases h
        rfl

theorem perm_of_upFiles (h : m.upFiles = .ok (files, base)) :
    files.Perm m.directory.listedUp := by
  obtain ⟨hsorted, -⟩ := upFiles_eq_ok_iff.1 h
  exact hsorted ▸ List.mergeSort_perm m.directory.listedUp File.le

theorem pairwise_of_upFiles (h : m.upFiles = .ok (files, base)) :
    files.Pairwise fun f g => f.le g = true := by
  obtain ⟨hsorted, -⟩ := upFiles_eq_ok_iff.1 h
  have hordered := @List.pairwise_mergeSort File File.le (fun _ _ _ => File.le_trans)
    File.le_total m.directory.listedUp
  exact hsorted ▸ hordered

theorem isBase_of_upFiles (h : m.upFiles = .ok (files, base)) : m.directory.IsBase base := by
  have hperm := perm_of_upFiles h
  have hsorted := pairwise_of_upFiles h
  obtain ⟨-, rest, rfl⟩ := upFiles_eq_ok_iff.1 h
  refine ⟨hperm.mem_iff.1 List.mem_cons_self, fun f hf => ?_⟩
  rcases List.mem_cons.1 (hperm.mem_iff.2 hf) with rfl | hf
  · exact File.le_refl f
  · exact (List.pairwise_cons.1 hsorted).1 f hf

theorem base_le_floor (highest : Int64) (base : File) : base.number ≤ floor highest base := by
  rw [floor]
  split
  · exact Int64.le_refl _
  · rename_i h
    exact Int64.not_lt.1 h

theorem highest_le_floor (highest : Int64) (base : File) : highest ≤ floor highest base := by
  rw [floor]
  split
  · rename_i h
    exact Int64.le_of_lt h
  · exact Int64.le_refl _

theorem floor_self (base : File) : floor base.number base = base.number :=
  if_neg Int64.lt_irrefl

/-- Files that are read keep their order, each with its script. -/
theorem of_readAll {scripts : List (File × String)} (h : readAll files = .ok scripts) :
    scripts.map (·.1) = files ∧ ∀ p ∈ scripts, p.1.content.read = .ok p.2 := by
  induction files generalizing scripts with
  | nil =>
    cases h
    exact ⟨rfl, fun p hp => by cases hp⟩
  | cons f files ih =>
    rw [readAll, List.mapM_cons] at h
    cases hread : f.content.read with
    | error failure =>
      rw [hread] at h
      cases h
    | ok script =>
      rw [hread] at h
      cases hrest : readAll files with
      | error failure =>
        rw [readAll] at hrest
        rw [hrest] at h
        cases h
      | ok rest =>
        obtain ⟨hfiles, hscripts⟩ := ih hrest
        rw [readAll] at hrest
        rw [hrest] at h
        cases h
        exact ⟨congrArg (f :: ·) hfiles, List.forall_mem_cons.2 ⟨hread, hscripts⟩⟩

end Migrator

/-- The files of a directory above a floor, each once and in order, with their scripts. -/
structure Pending (d : Directory) (floor : Int64) (scripts : List (File × String)) : Prop where
  perm : (scripts.map (·.1)).Perm (d.listedUp.filter fun f => floor < f.number)
  ordered : (scripts.map (·.1)).Pairwise fun f g => f.le g = true
  read : ∀ p ∈ scripts, p.1.content.read = .ok p.2

namespace Pending
variable {d : Directory} {floor : Int64} {scripts : List (File × String)} {p : File × String}

theorem mem (h : Pending d floor scripts) (hp : p ∈ scripts) :
    p.1 ∈ d.listedUp ∧ floor < p.1.number := by
  obtain ⟨hlisted, habove⟩ := List.mem_filter.1 (h.perm.mem_iff.1 (List.mem_map_of_mem hp))
  exact ⟨hlisted, by simpa using habove⟩

/-- A file above a number that is not negative has a number other than zero, and a name. -/
theorem recordable (h : Pending d floor scripts) (hfloor : 0 ≤ floor) (hp : p ∈ scripts) :
    p.1.number ≠ 0 ∧ p.1.fileName ≠ "" := by
  obtain ⟨hlisted, habove⟩ := h.mem hp
  obtain ⟨item, -, hitem⟩ := List.mem_filterMap.1 hlisted
  refine ⟨fun hzero => ?_, File.fileName_ne_empty hitem⟩
  rw [hzero] at habove
  exact Int64.lt_irrefl (Int64.lt_of_le_of_lt hfloor habove)

end Pending

namespace Migrator
variable {m : Migrator} {files : List File} {base : File}

theorem pending_of_readAll (h : m.upFiles = .ok (files, base)) {floor : Int64}
    {scripts : List (File × String)} (hscripts : readAll (pending files floor) = .ok scripts) :
    Pending m.directory floor scripts := by
  obtain ⟨hfiles, hread⟩ := of_readAll hscripts
  refine ⟨?_, ?_, hread⟩
  · rw [hfiles]
    exact (perm_of_upFiles h).filter _
  · rw [hfiles]
    exact (pairwise_of_upFiles h).filter _

end Migrator

end RecordLayer.Migration
