import Mathlib.Data.List.Nodup
import RecordLayer.Proofs.Migration.Growth

/-!
# Migrations — The order of a listing

A directory yields its items in an order that means nothing.  What is found in it is sorted by
number and then by name, so that the numbers and names come in one order whatever the listing.  The
files do as well, unless two of them have names that say the same: `1.a.up.sql` and `01.a.up.sql`
are both the file `a` of number 1.  These stay in the order in which they are listed, since the sort
is stable, so that the listing decides which of them runs first (`discover_listing_iff`).
-/

namespace RecordLayer.Migration

/-- A list in which nothing occurs twice does not have two elements in both orders. -/
theorem not_sublist_swap {α : Type} {l : List α} {a b : α} (hnodup : l.Nodup)
    (hab : [a, b].Sublist l) : ¬ [b, a].Sublist l := by
  intro hba
  induction l with
  | nil => cases hab
  | cons x l ih =>
    obtain ⟨hx, hl⟩ := List.nodup_cons.1 hnodup
    cases hab with
    | cons _ hab =>
      cases hba with
      | cons _ hba => exact ih hl hab hba
      | cons_cons _ hba => exact hx (hab.subset (by simp))
    | cons_cons _ hab =>
      cases hba with
      | cons _ hba => exact hx (hba.subset (by simp))
      | cons_cons _ hba => exact hx (hab.subset (by simp))

namespace File
variable {direction : Direction} {items listing : List (String × Item)} {f g : File}

/-- The migrations of one direction among some items, in the order of the listing. -/
def listed (direction : Direction) (items : List (String × Item)) : List File :=
  items.filterMap (ofItem? direction)

theorem ofItem?_file {text : String} {label : FileName} (h : FileName.ofText? text = some label)
    (hdirection : label.direction = direction) (content : Content) :
    ofItem? direction (text, .file content) = some ⟨label, text, content⟩ := by
  simp only [ofItem?, h, Option.bind_eq_bind, Option.bind_some, if_pos hdirection]

theorem mem_listed_iff : f ∈ listed direction items ↔
    (f.fileName, .file f.content) ∈ items ∧ FileName.ofText? f.fileName = some f.label ∧
      f.label.direction = direction := by
  constructor
  · intro h
    obtain ⟨item, hitem, hf⟩ := List.mem_filterMap.1 h
    have hlabel := label_of_ofItem? hf
    obtain rfl := eq_of_ofItem? hf
    refine ⟨hitem, hlabel, ?_⟩
    simp only [ofItem?, hlabel, Option.bind_eq_bind, Option.bind_some] at hf
    split at hf
    · assumption
    · cases hf
  · rintro ⟨hitem, hlabel, hdirection⟩
    exact List.mem_filterMap.2 ⟨_, hitem, ofItem?_file hlabel hdirection _⟩

/-- Different items are different files. -/
theorem nodup_listed (hnames : (items.map (·.1)).Nodup) : (listed direction items).Nodup := by
  refine List.Nodup.filterMap (fun a b f ha hb => ?_) hnames.of_map
  rw [eq_of_ofItem? ha, eq_of_ofItem? hb]

/-- Files of one name are one file. -/
theorem eq_of_fileName_eq (hnames : (items.map (·.1)).Nodup) (hf : f ∈ listed direction items)
    (hg : g ∈ listed direction items) (hname : f.fileName = g.fileName) : f = g := by
  obtain ⟨hfitem, hflabel, -⟩ := mem_listed_iff.1 hf
  obtain ⟨hgitem, hglabel, -⟩ := mem_listed_iff.1 hg
  have hitem := List.inj_on_of_nodup_map hnames hfitem hgitem hname
  have hcontent : f.content = g.content := Item.file.inj (Prod.mk.inj hitem).2
  have hlabel : f.label = g.label := Option.some.inj (hflabel ▸ hname ▸ hglabel)
  cases f
  cases g
  congr

/-- Files of one direction that tie have names that say the same. -/
theorem label_eq_of_le_of_le (hf : f ∈ listed direction items)
    (hg : g ∈ listed direction listing) (hfg : f.le g = true) (hgf : g.le f = true) :
    f.label = g.label := by
  obtain ⟨hnumber, hname⟩ := tie hfg hgf
  have hdirection := (mem_listed_iff.1 hf).2.2.trans (mem_listed_iff.1 hg).2.2.symm
  revert hnumber hname hdirection
  rw [number, number]
  cases f.label
  cases g.label
  rintro rfl rfl rfl
  rfl

theorem pairwise_mergeSort (files : List File) :
    (files.mergeSort le).Pairwise fun f g => f.le g = true :=
  @List.pairwise_mergeSort File le (fun _ _ _ => le_trans) le_total files

theorem mem_mergeSort {files : List File} : f ∈ files.mergeSort le ↔ f ∈ files :=
  (List.mergeSort_perm files le).mem_iff

theorem mergeSort_perm_of_perm (h : listing.Perm items) :
    ((listed direction listing).mergeSort le).Perm ((listed direction items).mergeSort le) :=
  (List.mergeSort_perm _ _).trans
    ((h.filterMap (ofItem? direction)).trans (List.mergeSort_perm _ _).symm)

/-- What the names say comes in one order. -/
theorem map_label_mergeSort (h : listing.Perm items) :
    ((listed direction listing).mergeSort le).map label =
      ((listed direction items).mergeSort le).map label := by
  have hpairs : ∀ files : List File, ((files.mergeSort le).map label).Pairwise fun a b =>
      a.number < b.number ∨ a.number = b.number ∧ a.name ≤ b.name := fun files =>
    List.pairwise_map.2 ((pairwise_mergeSort files).imp le_iff.1)
  refine List.Perm.eq_of_pairwise (fun a b ha hb hab hba => ?_) (hpairs _) (hpairs _)
    ((mergeSort_perm_of_perm h).map label)
  obtain ⟨f, hf, rfl⟩ := List.mem_map.1 ha
  obtain ⟨g, hg, rfl⟩ := List.mem_map.1 hb
  exact label_eq_of_le_of_le (mem_mergeSort.1 hf) (mem_mergeSort.1 hg) (le_iff.2 hab)
    (le_iff.2 hba)

/-- Two files that say the same stay in the order of the listing. -/
theorem sublist_mergeSort_of_label_eq (hlabel : f.label = g.label) {files : List File}
    (h : [f, g].Sublist files) : [f, g].Sublist (files.mergeSort le) := by
  have hle : f.le g = true := by
    rw [le_iff, number, number, hlabel]
    exact .inr ⟨rfl, String.le_refl _⟩
  exact List.pair_sublist_mergeSort (fun _ _ _ => le_trans) le_total hle h

/-- Two files that say the same and are listed first come in the order of the listing. -/
theorem sublist_mergeSort_of_listed_first {c d : String × Item} (hc : ofItem? direction c = some f)
    (hd : ofItem? direction d = some g) (hlabel : f.label = g.label) (rest : List (String × Item)) :
    [f, g].Sublist ((listed direction (c :: d :: rest)).mergeSort le) := by
  refine sublist_mergeSort_of_label_eq hlabel ?_
  rw [listed, List.filterMap_cons_some hc, List.filterMap_cons_some hd]
  exact ((List.nil_sublist _).cons_cons _).cons_cons _

end File

namespace Directory
variable {items : List (String × Item)} {direction : Direction}

/-- Two files of the direction have different names that say the same. -/
def HasTie (items : List (String × Item)) (direction : Direction) : Prop :=
  ∃ a x b y label, (a, .file x) ∈ items ∧ (b, .file y) ∈ items ∧ a ≠ b ∧
    FileName.ofText? a = some label ∧ FileName.ofText? b = some label ∧
    label.direction = direction

/-- Two items can be listed first, in either order. -/
theorem exists_listings {a b : String × Item} (ha : a ∈ items) (hb : b ∈ items) (hne : a ≠ b) :
    ∃ rest, (a :: b :: rest).Perm items ∧ (b :: a :: rest).Perm items := by
  have hrest := List.perm_cons_erase ((List.mem_erase_of_ne hne.symm).2 hb)
  have hboth := ((List.perm_cons_erase ha).trans (hrest.cons a)).symm
  exact ⟨_, hboth, (List.Perm.swap a b _).trans hboth⟩

/-- Of two files that tie either comes first in some listing, and so among what is found. -/
theorem not_same_of_hasTie (hnames : (items.map (·.1)).Nodup) (htie : HasTie items direction) :
    ¬ ∀ listing, listing.Perm items → (File.listed direction listing).mergeSort File.le =
      (File.listed direction items).mergeSort File.le := by
  intro hsame
  obtain ⟨a, x, b, y, label, ha, hb, hne, halabel, hblabel, hdirection⟩ := htie
  obtain ⟨rest, hab, hba⟩ := exists_listings ha hb fun h => hne (Prod.mk.inj h).1
  have haitem := File.ofItem?_file halabel hdirection x
  have hbitem := File.ofItem?_file hblabel hdirection y
  have hfirst := File.sublist_mergeSort_of_listed_first haitem hbitem rfl rest
  have hsecond := File.sublist_mergeSort_of_listed_first hbitem haitem rfl rest
  rw [hsame _ hab] at hfirst
  rw [hsame _ hba] at hsecond
  have hnodup : ((File.listed direction items).mergeSort File.le).Nodup :=
    (List.mergeSort_perm _ _).nodup_iff.2 (File.nodup_listed hnames)
  exact not_sublist_swap hnodup hfirst hsecond

/-- Files that do not tie come in one order. -/
theorem mergeSort_eq_of_not_hasTie (hnames : (items.map (·.1)).Nodup)
    (hnone : ¬ HasTie items direction) {listing : List (String × Item)}
    (hperm : listing.Perm items) : (File.listed direction listing).mergeSort File.le =
      (File.listed direction items).mergeSort File.le := by
  refine List.Perm.eq_of_pairwise (fun f g hf hg hfg hgf => ?_) (File.pairwise_mergeSort _)
    (File.pairwise_mergeSort _) (File.mergeSort_perm_of_perm hperm)
  have hg := File.mem_mergeSort.1 hg
  have hf : f ∈ File.listed direction items :=
    (hperm.filterMap _).mem_iff.1 (File.mem_mergeSort.1 hf)
  obtain ⟨hfitem, hflabel, hdirection⟩ := File.mem_listed_iff.1 hf
  obtain ⟨hgitem, hglabel, -⟩ := File.mem_listed_iff.1 hg
  have hlabel := File.label_eq_of_le_of_le hf hg hfg hgf
  refine File.eq_of_fileName_eq hnames hf hg (by_contra fun hne => hnone ?_)
  exact ⟨_, _, _, _, _, hfitem, hgitem, hne, hflabel, hlabel ▸ hglabel, hdirection⟩

/-- **The listing counts exactly where names tie.**  For items of different names, the numbers and
names that are found come in the same order however the items are listed; the files themselves do
exactly if no two of them have names that say the same. -/
theorem discover_listing_iff (path : String) (hnames : (items.map (·.1)).Nodup)
    (direction : Direction) :
    let discovered (listing : List (String × Item)) :=
      (Directory.mk path (some listing)).discover direction
    (∀ listing, listing.Perm items →
      (discovered listing).map (List.map File.label) =
        (discovered items).map (List.map File.label)) ∧
    ((∀ listing, listing.Perm items → discovered listing = discovered items) ↔
      ¬ HasTie items direction) := by
  intro discovered
  have hdiscovered : ∀ listing, discovered listing =
      .ok ((File.listed direction listing).mergeSort File.le) := fun _ => rfl
  refine ⟨fun listing hperm => ?_, ⟨fun hsame htie => ?_, fun hnone listing hperm => ?_⟩⟩
  · rw [hdiscovered, hdiscovered]
    exact congrArg Except.ok (File.map_label_mergeSort hperm)
  · refine not_same_of_hasTie hnames htie fun listing hperm => ?_
    have hkept := hsame listing hperm
    rw [hdiscovered, hdiscovered] at hkept
    exact Except.ok.inj hkept
  · rw [hdiscovered, hdiscovered, mergeSort_eq_of_not_hasTie hnames hnone hperm]

/-! ### A number that is written in two ways -/

/-- The first migration, its number written in one digit and in two. -/
def plainFirst : File := ⟨⟨1, "a", .up⟩, "1.a.up.sql", .text ""⟩

def paddedFirst : File := ⟨⟨1, "a", .up⟩, "01.a.up.sql", .text ""⟩

/-- The two up files, and a down file that ties with neither. -/
def paddedItems : List (String × Item) :=
  [("1.a.up.sql", .file (.text "")), ("01.a.up.sql", .file (.text "")),
    ("1.a.down.sql", .file (.text ""))]

theorem listing_of_padded_counts :
    let discovered (listing : List (String × Item)) :=
      (Directory.mk "sqlite" (some listing)).discover .up
    (paddedItems.map (·.1)).Nodup ∧ HasTie paddedItems .up ∧
      ¬ ∀ listing, listing.Perm paddedItems → discovered listing = discovered paddedItems := by
  intro discovered
  have hnames : (paddedItems.map (·.1)).Nodup := by decide
  have htie : HasTie paddedItems .up :=
    ⟨"1.a.up.sql", .text "", "01.a.up.sql", .text "", ⟨1, "a", .up⟩, by decide, by decide,
      by decide, by decide +kernel, by decide +kernel, rfl⟩
  exact ⟨hnames, htie, fun hsame =>
    (discover_listing_iff "sqlite" hnames .up).2.1 hsame htie⟩

/-- Of the two up files the one that is listed first comes first, and is the base. -/
theorem padded_listed_first :
    paddedItems.reverse.Perm paddedItems ∧
      (Directory.mk "sqlite" (some paddedItems)).discover .up = .ok [plainFirst, paddedFirst] ∧
      (Directory.mk "sqlite" (some paddedItems.reverse)).discover .up =
        .ok [paddedFirst, plainFirst] := by
  have hplain : File.listed .up paddedItems = [plainFirst, paddedFirst] := by decide +kernel
  have hpadded : File.listed .up paddedItems.reverse = [paddedFirst, plainFirst] := by
    decide +kernel
  refine ⟨List.reverse_perm _, ?_, ?_⟩
  · change Except.ok ((File.listed .up paddedItems).mergeSort File.le) = _
    rw [hplain, List.mergeSort_of_pairwise (by decide +kernel)]
  · change Except.ok ((File.listed .up paddedItems.reverse).mergeSort File.le) = _
    rw [hpadded, List.mergeSort_of_pairwise (by decide +kernel)]

end Directory

end RecordLayer.Migration
