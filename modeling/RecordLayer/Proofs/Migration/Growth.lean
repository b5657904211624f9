import Mathlib.Data.List.Chain
import Mathlib.Data.List.Pairwise
import RecordLayer.Proofs.Migration.Found

/-!
# Migrations — Directories that grow

A directory grows by up files whose numbers are above those of all that it has (`Grows`).  The base
stays the base, and what is pending above a floor that the first directory has reached comes behind
what is pending in it (`Pending.append`).

Files that tie, by number and name, come in the order in which they are listed.  Any order of these
is that of some listing (`exists_listing`), and where none tie, the listing does not count
(`IsDistinct.lists`).
-/

namespace RecordLayer.Migration

namespace Directory

/-- The second directory has the up files of the first, and more with numbers above all of these. -/
def Grows (d d' : Directory) : Prop :=
  ∃ added, d'.listedUp.Perm (d.listedUp ++ added) ∧
    ∀ f ∈ d.listedUp, ∀ g ∈ added, f.number < g.number

/-- The order of the listing does not count. -/
theorem Grows.of_perm {d d' : Directory} (h : d.listedUp.Perm d'.listedUp) : d.Grows d' :=
  ⟨[], by rw [List.append_nil]; exact h.symm, fun f _ g hg => by cases hg⟩

theorem Grows.refl (d : Directory) : d.Grows d :=
  .of_perm (List.Perm.refl _)

theorem Grows.trans {d d' d'' : Directory} (h : d.Grows d') (h' : d'.Grows d'') : d.Grows d'' := by
  obtain ⟨added, hperm, habove⟩ := h
  obtain ⟨added', hperm', habove'⟩ := h'
  refine ⟨added ++ added', ?_, fun f hf g hg => ?_⟩
  · rw [← List.append_assoc]
    exact hperm'.trans (hperm.append_right added')
  · rcases List.mem_append.1 hg with hg | hg
    · exact habove f hf g hg
    · exact habove' f (hperm.mem_iff.2 (List.mem_append_left _ hf)) g hg

instance : Trans Grows Grows Grows :=
  ⟨Grows.trans⟩

section
variable {d d' : Directory} {f base : File}

theorem Grows.mem (h : d.Grows d') (hf : f ∈ d.listedUp) : f ∈ d'.listedUp := by
  obtain ⟨added, hperm, -⟩ := h
  exact hperm.mem_iff.2 (List.mem_append_left _ hf)

theorem IsBase.number_le (h : d.IsBase base) (hf : f ∈ d.listedUp) : base.number ≤ f.number :=
  File.number_le_of_le (h.2 f hf)

theorem IsBase.number_eq (h : d.IsBase base) (h' : d.IsBase f) : base.number = f.number :=
  Int64.le_antisymm (h.number_le h'.1) (h'.number_le h.1)

/-- A base stays one. -/
theorem Grows.isBase (h : d.Grows d') (hbase : d.IsBase base) : d'.IsBase base := by
  refine ⟨h.mem hbase.1, fun g hg => ?_⟩
  obtain ⟨added, hperm, habove⟩ := h
  rcases List.mem_append.1 (hperm.mem_iff.1 hg) with hg | hg
  · exact hbase.2 g hg
  · exact File.le_iff.2 (.inl (habove base hbase.1 g hg))

/-- A base was one before, if there was any file. -/
theorem Grows.isBase_of_mem (h : d.Grows d') (hbase : d'.IsBase base) (hf : f ∈ d.listedUp) :
    d.IsBase base := by
  have hle := hbase.number_le (h.mem hf)
  refine ⟨?_, fun g hg => hbase.2 g (h.mem hg)⟩
  obtain ⟨added, hperm, habove⟩ := h
  rcases List.mem_append.1 (hperm.mem_iff.1 hbase.1) with hold | hnew
  · exact hold
  · exact absurd (Int64.lt_of_lt_of_le (habove f hf base hnew) hle) Int64.lt_irrefl

end

/-- Of two directories of a chain, one grows to the other. -/
theorem grows_or_grows {chain : List Directory} (hchain : chain.IsChain Grows) {d d' : Directory}
    (hd : d ∈ chain) (hd' : d' ∈ chain) : d.Grows d' ∨ d'.Grows d := by
  have hsymm : Std.Symm fun x y : Directory => x.Grows y ∨ y.Grows x := ⟨fun _ _ => Or.symm⟩
  have hpairs : chain.Pairwise fun x y => x.Grows y ∨ y.Grows x := hchain.pairwise.imp .inl
  exact hpairs.forall_of_forall (fun x _ => .inl (Grows.refl x)) hd hd'

/-- The directories of a chain grow to the last. -/
theorem grows_last {earlier : List Directory} {last : Directory}
    (hchain : (earlier ++ [last]).IsChain Grows) {d : Directory} (hd : d ∈ earlier ++ [last]) :
    d.Grows last := by
  rcases List.mem_append.1 hd with hd | hd
  · exact (List.pairwise_append.1 hchain.pairwise).2.2 d hd last (List.mem_singleton_self last)
  · rw [List.mem_singleton.1 hd]
    exact Grows.refl last

end Directory

/-! ### Floors -/

/-- The number is the highest of the base's and those of the scripts' files. -/
structure IsFloor (base : File) (scripts : List (File × String)) (floor : Int64) : Prop where
  base_le : base.number ≤ floor
  le : ∀ p ∈ scripts, p.1.number ≤ floor
  attained : floor = base.number ∨ ∃ p ∈ scripts, floor = p.1.number

namespace Pending
variable {d d' : Directory} {base : File} {floor : Int64} {scripts more : List (File × String)}

theorem floor_of_nil (h : IsFloor base [] floor) : floor = base.number := by
  rcases h.attained with h | ⟨p, hp, -⟩
  · exact h
  · cases hp

/-- A floor of all that is pending is above all files, and is the number of one. -/
theorem isFloor (h : Pending d base.number scripts) (hbase : d.IsBase base)
    (hfloor : IsFloor base scripts floor) :
    (∀ f ∈ d.listedUp, f.number ≤ floor) ∧ ∃ f ∈ d.listedUp, floor = f.number := by
  refine ⟨fun f hf => ?_, ?_⟩
  · by_cases habove : base.number < f.number
    · have hmem : f ∈ d.listedUp.filter fun f => base.number < f.number :=
        List.mem_filter.2 ⟨hf, decide_eq_true habove⟩
      obtain ⟨p, hp, rfl⟩ := List.mem_map.1 (h.perm.mem_iff.2 hmem)
      exact hfloor.le p hp
    · exact Int64.le_trans (Int64.not_lt.1 habove) hfloor.base_le
  · rcases hfloor.attained with hattained | ⟨p, hp, hattained⟩
    · exact ⟨base, hbase.1, hattained⟩
    · exact ⟨p.1, (h.mem hp).1, hattained⟩

/-- Nothing is pending in a directory that has not grown. -/
theorem eq_nil (h : Pending d base.number scripts) (hbase : d.IsBase base)
    (hfloor : IsFloor base scripts floor) (hgrows : d'.Grows d) (hmore : Pending d' floor more) :
    more = [] := by
  refine List.eq_nil_iff_forall_not_mem.2 fun p hp => ?_
  obtain ⟨hlisted, habove⟩ := hmore.mem hp
  have hle := (h.isFloor hbase hfloor).1 p.1 (hgrows.mem hlisted)
  exact Int64.lt_irrefl (Int64.lt_of_lt_of_le habove hle)

/-- What is pending in a directory that has grown comes behind what was pending before. -/
theorem append (h : Pending d base.number scripts) (hbase : d.IsBase base)
    (hfloor : IsFloor base scripts floor) (hgrows : d.Grows d') (hmore : Pending d' floor more) :
    Pending d' base.number (scripts ++ more) := by
  obtain ⟨hle, top, htop, rfl⟩ := h.isFloor hbase hfloor
  obtain ⟨added, hperm, habove⟩ := hgrows
  have hold : d.listedUp.filter (fun f => top.number < f.number) = [] := by
    refine List.filter_eq_nil_iff.2 fun f hf => ?_
    rw [decide_eq_true_eq]
    exact Int64.not_lt.2 (hle f hf)
  have hnew : added.filter (fun f => top.number < f.number) = added :=
    List.filter_eq_self.2 fun g hg => decide_eq_true (habove top htop g hg)
  have hall : added.filter (fun f => base.number < f.number) = added :=
    List.filter_eq_self.2 fun g hg => decide_eq_true (habove base hbase.1 g hg)
  refine ⟨?_, ?_, fun p hp => ?_⟩
  -- what is above the floor is what was added, and that is above the base too
  · have hmore := hmore.perm.trans (hperm.filter _)
    rw [List.filter_append, hold, hnew, List.nil_append] at hmore
    have hboth := hperm.filter fun f => base.number < f.number
    rw [List.filter_append, hall] at hboth
    rw [List.map_append]
    exact (h.perm.append hmore).trans hboth.symm
  · rw [List.map_append]
    refine List.pairwise_append.2 ⟨h.ordered, hmore.ordered, fun f hf g hg => ?_⟩
    obtain ⟨p, hp, rfl⟩ := List.mem_map.1 hf
    obtain ⟨q, hq, rfl⟩ := List.mem_map.1 hg
    exact File.le_iff.2 (.inl (Int64.lt_of_le_of_lt (hfloor.le p hp) (hmore.mem hq).2))
  · rcases List.mem_append.1 hp with hp | hp
    · exact h.read p hp
    · exact hmore.read p hp

/-- The files determine the scripts. -/
theorem eq_of_files_eq (h : Pending d floor scripts) {floor' : Int64} (h' : Pending d' floor' more)
    (hfiles : scripts.map (·.1) = more.map (·.1)) : scripts = more := by
  have hread : ∀ l : List (File × String), (∀ p ∈ l, p.1.content.read = .ok p.2) →
      (l.map (·.1)).map (fun f => (f, f.content.read.toOption.getD "")) = l := by
    intro l hl
    rw [List.map_map]
    refine (List.map_congr_left fun p hp => ?_).trans (List.map_id l)
    rw [Function.comp_apply, hl p hp]
    rfl
  rw [← hread scripts h.read, hfiles, hread more h'.read]

end Pending

/-! ### Orders of listing -/

/-- An item that is a migration is its file. -/
theorem File.eq_of_ofItem? {direction : Direction} {item : String × Item} {f : File}
    (h : ofItem? direction item = some f) : item = (f.fileName, .file f.content) := by
  obtain ⟨fileName, kind⟩ := item
  cases kind with
  | folder => cases h
  | file content =>
    simp only [ofItem?, Option.bind_eq_bind] at h
    obtain ⟨label, hlabel, h⟩ := Option.bind_eq_some_iff.1 h
    split at h
    · cases h
      rfl
    · cases h

namespace Directory
variable {d : Directory} {base : File} {scripts : List (File × String)}

/-- A directory of files, listed in their order. -/
def ofFiles (files : List File) : Directory :=
  ⟨"", some (files.map fun f => (f.fileName, .file f.content))⟩

theorem listedUp_ofFiles {files : List File} (h : ∀ f ∈ files, f ∈ d.listedUp) :
    (ofFiles files).listedUp = files := by
  have hitems : ∀ f ∈ files, File.ofItem? .up (f.fileName, .file f.content) = some f := by
    intro f hf
    obtain ⟨item, -, hitem⟩ := List.mem_filterMap.1 (h f hf)
    rw [← File.eq_of_ofItem? hitem]
    exact hitem
  rw [listedUp, ofFiles, Option.getD_some, List.filterMap_map]
  induction files with
  | nil => rfl
  | cons f files ih =>
    obtain ⟨hf, hfiles⟩ := List.forall_mem_cons.1 hitems
    rw [List.filterMap_cons, Function.comp_apply, hf,
      ih (fun g hg => h g (List.mem_cons_of_mem _ hg)) hfiles]

section
variable (d base) (scripts : List (File × String))

/-- The files that are neither the base nor above it. -/
def besides : List File :=
  ((d.listedUp.erase base).filter fun f => !(base.number < f.number)).mergeSort File.le

/-- The files with a given base, and with those above it in a given order. -/
def arranged : List File :=
  base :: (d.besides base ++ scripts.map (·.1))

end

theorem of_mem_besides {f : File} (h : f ∈ d.besides base) :
    f ∈ d.listedUp ∧ f.number ≤ base.number := by
  obtain ⟨herase, hlow⟩ := List.mem_filter.1 ((List.mergeSort_perm _ _).mem_iff.1 h)
  exact ⟨List.mem_of_mem_erase herase, Int64.not_lt.1 (by simpa using hlow)⟩

theorem arranged_perm (hbase : d.IsBase base) (h : Pending d base.number scripts) :
    (d.arranged base scripts).Perm d.listedUp := by
  have herase := List.perm_cons_erase hbase.1
  have habove : ((d.listedUp.erase base).filter fun f => base.number < f.number).Perm
      (scripts.map (·.1)) := by
    have hfilter := herase.filter fun f => base.number < f.number
    rw [List.filter_cons_of_neg (by rw [decide_eq_true_eq]; exact Int64.lt_irrefl)] at hfilter
    exact hfilter.symm.trans h.perm.symm
  have hbesides : (d.besides base).Perm
      ((d.listedUp.erase base).filter fun f => !(base.number < f.number)) :=
    List.mergeSort_perm _ _
  refine List.Perm.trans (List.Perm.cons base ?_) herase.symm
  exact (List.perm_append_comm.trans (habove.symm.append hbesides)).trans
    (List.filter_append_perm _ _)

theorem arranged_sorted (hbase : d.IsBase base) (h : Pending d base.number scripts) :
    (d.arranged base scripts).Pairwise fun f g => f.le g = true := by
  have hperm := arranged_perm hbase h
  refine List.pairwise_cons.2 ⟨fun f hf => hbase.2 f (hperm.mem_iff.1 (List.mem_cons_of_mem _ hf)),
    List.pairwise_append.2 ⟨?_, h.ordered, fun f hf g hg => ?_⟩⟩
  · exact @List.pairwise_mergeSort File File.le (fun _ _ _ => File.le_trans) File.le_total _
  · obtain ⟨p, hp, rfl⟩ := List.mem_map.1 hg
    have hlt := Int64.lt_of_le_of_lt (of_mem_besides hf).2 (h.mem hp).2
    exact File.le_iff.2 (.inl hlt)

theorem pending_arranged (h : Pending d base.number scripts) :
    Migrator.pending (d.arranged base scripts) base.number = scripts.map (·.1) := by
  have hnone : (d.besides base).filter (fun f => base.number < f.number) = [] := by
    refine List.filter_eq_nil_iff.2 fun f hf => ?_
    rw [decide_eq_true_eq]
    exact Int64.not_lt.2 (of_mem_besides hf).2
  have hall : (scripts.map (·.1)).filter (fun f => base.number < f.number) =
      scripts.map (·.1) :=
    List.filter_eq_self.2 fun f hf => (List.mem_filter.1 (h.perm.mem_iff.1 hf)).2
  rw [Migrator.pending, arranged, List.filter_cons_of_neg, List.filter_append, hnone, hall,
    List.nil_append]
  rw [decide_eq_true_eq]
  exact Int64.lt_irrefl

/-- A migrator finds the base first in the directory, and behind it the files above it in the order
given. -/
def Lists (d : Directory) (base : File) (above : List File) : Prop :=
  ∃ files, (∀ ctx, (Migrator.mk ctx d false).upFiles = .ok (files, base)) ∧
    Migrator.pending files base.number = above

/-- The files can be listed so that a given one of the lowest is the base, and those that are
pending above it come in a given order. -/
theorem exists_listing (hbase : d.IsBase base) (h : Pending d base.number scripts) :
    ∃ d' : Directory, d'.listedUp.Perm d.listedUp ∧ d'.Lists base (scripts.map (·.1)) := by
  have hperm := arranged_perm hbase h
  have hlisted : (ofFiles (d.arranged base scripts)).listedUp = d.arranged base scripts :=
    listedUp_ofFiles fun f hf => hperm.mem_iff.1 hf
  refine ⟨ofFiles (d.arranged base scripts), by rw [hlisted]; exact hperm, d.arranged base scripts,
    fun ctx => Migrator.upFiles_eq_ok_iff.2 ⟨?_, _, rfl⟩, pending_arranged h⟩
  -- a list in order is left as it is
  rw [hlisted]
  exact (List.mergeSort_of_pairwise (arranged_sorted hbase h)).symm

/-- No two up files tie. -/
def IsDistinct (d : Directory) : Prop :=
  ∀ f ∈ d.listedUp, ∀ g ∈ d.listedUp, f.number = g.number → f.label.name = g.label.name → f = g

/-- Files of which no two tie have one base and come in one order, however they are listed. -/
theorem IsDistinct.lists (hdistinct : d.IsDistinct) (hbase : d.IsBase base)
    (h : Pending d base.number scripts) {m : Migrator}
    (hperm : m.directory.listedUp.Perm d.listedUp) {files : List File} {base' : File}
    (hfound : m.upFiles = .ok (files, base')) :
    m.directory.Lists base (scripts.map (·.1)) := by
  have hbase' := (Grows.of_perm hperm).isBase (Migrator.isBase_of_upFiles hfound)
  have htie := File.tie (hbase'.2 base hbase.1) (hbase.2 base' hbase'.1)
  have hfiles := (Migrator.perm_of_upFiles hfound).trans hperm
  obtain rfl := hdistinct base' hbase'.1 base hbase.1 htie.1 htie.2
  refine ⟨files, fun ctx => Migrator.upFiles_eq_ok_iff.2 (Migrator.upFiles_eq_ok_iff.1 hfound), ?_⟩
  refine List.Perm.eq_of_pairwise (fun f g hf hg hfg hgf => ?_)
    ((Migrator.pairwise_of_upFiles hfound).filter _) h.ordered ((hfiles.filter _).trans h.perm.symm)
  have htie := File.tie hfg hgf
  have hf' := hfiles.mem_iff.1 (List.mem_filter.1 hf).1
  have hg' := (List.mem_filter.1 (h.perm.mem_iff.1 hg)).1
  exact hdistinct f hf' g hg' htie.1 htie.2

end Directory

end RecordLayer.Migration
