import RecordLayer.Proofs.Migration.Path

/-!
# Migrations — The history of a database

A database is installed on again and again, over directories that may change in any way from one
visit to the next: lose files, gain some below those applied, number two alike, or get another base.
Each visit adds a batch of rows to the tracking table, an empty one if it fails, and the batches are
in order (`records_in_order`): the numbers of a batch do not fall, those of a later one are above
those of all before, and no file name comes twice.

A batch is above what was recorded because the floor is (`isBatch_of_pending`).  Names stay apart
since a name says its number, and within a batch since a directory does not list a name twice.
-/

namespace RecordLayer.Migration
open Dialogue

/-! ### Batches of records -/

/-- The number recorded is that in the file name. -/
def Tracked.IsLabelled (row : Tracked) : Prop :=
  ∃ label, FileName.ofText? row.fileName = some label ∧ label.number = row.number

theorem Tracked.IsLabelled.number_eq {row row' : Tracked} (h : row.IsLabelled)
    (h' : row'.IsLabelled) (hname : row.fileName = row'.fileName) : row.number = row'.number := by
  obtain ⟨label, hlabel, hnumber⟩ := h
  obtain ⟨label', hlabel', hnumber'⟩ := h'
  rw [hname, hlabel'] at hlabel
  cases hlabel
  exact hnumber.symm.trans hnumber'

/-- Rows that may follow those of before: their numbers do not fall and are above the numbers of
before, and no file name comes twice. -/
structure IsBatch (before rows : List Tracked) : Prop where
  ascending : rows.Pairwise fun row row' => row.number ≤ row'.number
  above : ∀ row ∈ before, ∀ row' ∈ rows, row.number < row'.number
  labelled : ∀ row ∈ rows, row.IsLabelled
  distinct : (rows.map (·.fileName)).Nodup

theorem IsBatch.nil (before : List Tracked) : IsBatch before [] where
  ascending := .nil
  above := fun row _ row' h => by cases h
  labelled := fun row h => by cases h
  distinct := .nil

/-- Batches of which each may follow those before it. -/
structure InOrder (batches : List (List Tracked)) : Prop where
  ascending : batches.flatten.Pairwise fun row row' => row.number ≤ row'.number
  rising : batches.Pairwise fun rows rows' =>
    ∀ row ∈ rows, ∀ row' ∈ rows', row.number < row'.number
  labelled : ∀ row ∈ batches.flatten, row.IsLabelled
  distinct : (batches.flatten.map (·.fileName)).Nodup

theorem InOrder.nil : InOrder [] where
  ascending := .nil
  rising := .nil
  labelled := fun row h => by cases h
  distinct := .nil

/-- One more batch. -/
theorem InOrder.concat {batches : List (List Tracked)} {rows : List Tracked} (h : InOrder batches)
    (hrows : IsBatch batches.flatten rows) : InOrder (batches ++ [rows]) := by
  have hflatten : (batches ++ [rows]).flatten = batches.flatten ++ rows := by
    rw [List.flatten_append, List.flatten_singleton]
  have hlabelled : ∀ row ∈ batches.flatten ++ rows, row.IsLabelled := fun row hrow =>
    (List.mem_append.1 hrow).elim (h.labelled row) (hrows.labelled row)
  refine ⟨?_, ?_, hflatten ▸ hlabelled, ?_⟩
  · rw [hflatten]
    exact List.pairwise_append.2 ⟨h.ascending, hrows.ascending, fun row hrow row' hrow' =>
      Int64.le_of_lt (hrows.above row hrow row' hrow')⟩
  · refine List.pairwise_append.2 ⟨h.rising, List.pairwise_singleton _ _, ?_⟩
    intro earlier hearlier later hlater row hrow row' hrow'
    rw [List.mem_singleton.1 hlater] at hrow'
    exact hrows.above row (List.mem_flatten_of_mem hearlier hrow) row' hrow'
  · rw [hflatten, List.map_append, List.nodup_append]
    refine ⟨h.distinct, hrows.distinct, ?_⟩
    -- a name of both would have one number, which is above itself
    rintro _ hold _ hnew rfl
    obtain ⟨row, hrow, hname⟩ := List.mem_map.1 hold
    obtain ⟨row', hrow', hname'⟩ := List.mem_map.1 hnew
    have hnumber := (h.labelled row hrow).number_eq (hrows.labelled row' hrow')
      (hname.trans hname'.symm)
    have hlt := hrows.above row hrow row' hrow'
    rw [hnumber] at hlt
    exact Int64.lt_irrefl hlt

/-! ### What scripts leave recorded -/

namespace Database
variable {D : Type}

/-- The rows of the tracking table; none if there is no table. -/
def records (db : Database D) : List Tracked :=
  db.tracking.getD []

/-- A row is recorded if there is a table. -/
theorem exists_records_record (db : Database D) (row : Tracked) :
    ∃ rows, rows.Sublist [row] ∧ (db.record row).records = db.records ++ rows := by
  rw [record, records, records]
  cases db.tracking with
  | none => exact ⟨[], List.nil_sublist _, rfl⟩
  | some records => exact ⟨[row], List.Sublist.refl _, rfl⟩

end Database

namespace Backend
variable {dialect : Dialect} {D : Type} (b : Backend dialect D)

/-- What is asked of up files that come and go: no statement opens or ends a transaction, and no
script touches the records.  The base is asked for no more than to leave none where there is no
tracking table; it is to create one there, empty. -/
structure Harmless (d : Directory) (base : File) : Prop where
  uncontrolled : b.Uncontrolled d.listedUp
  creates : ∀ script, base.content.read = .ok script → ∀ db, db.tracking = none →
    (b.play script db).records = []
  keeps : ∀ f ∈ d.listedUp, base.number < f.number → ∀ script, f.content.read = .ok script →
    ∀ db, (b.play script db).records = db.records

variable {b}

theorem Orderly.harmless {d : Directory} {base : File} (hfit : b.Orderly d base) :
    b.Harmless d base where
  uncontrolled := hfit.isUncontrolled
  creates script hread db hdb := by
    rw [Database.records, hfit.creates script hread db hdb]
    rfl
  keeps f hf habove script hread db := by
    rw [Database.records, hfit.apart f hf habove script hread db]
    rfl

/-- Scripts that do not touch the records leave one each, where there is a table. -/
theorem exists_records_applyAll (clock : Clock) {scripts : List (File × String)}
    (h : ∀ p ∈ scripts, ∀ db, (b.play p.2 db).records = db.records) (db : Database D) :
    ∃ rows, rows.Sublist (rowsOf clock scripts) ∧
      (b.applyAll clock scripts db).records = db.records ++ rows := by
  induction scripts generalizing clock db with
  | nil => exact ⟨[], List.Sublist.refl _, (List.append_nil _).symm⟩
  | cons p rest ih =>
    obtain ⟨hp, hrest⟩ := List.forall_mem_cons.1 h
    obtain ⟨rows, hrows, hrecord⟩ := (b.play p.2 db).exists_records_record (p.1.row (clock 0))
    obtain ⟨more, hmore, happlied⟩ :=
      ih clock.later hrest ((b.play p.2 db).record (p.1.row (clock 0)))
    refine ⟨rows ++ more, ?_, ?_⟩
    · rw [rowsOf_cons]
      exact hrows.append hmore
    · rw [applyAll, happlied, hrecord, hp db, List.append_assoc]

section
variable {d : Directory} {base : File} {db start : Database D} {floor : Int64}
  {bootstrapped : Bool}

/-- What goes before the pending files leaves the records as they are. -/
theorem Prepared.records_eq (hfit : b.Harmless d base)
    (h : b.Prepared base db start floor bootstrapped) : start.records = db.records := by
  cases h with
  | found h => rfl
  | created h hread =>
    rw [hfit.creates _ hread db h, Database.records, h]
    rfl

/-- No record is above the floor. -/
theorem Prepared.le_floor (h : b.Prepared base db start floor bootstrapped) :
    ∀ row ∈ db.records, row.number ≤ floor := by
  cases h with
  | found h =>
    intro row hrow
    rw [Database.records, h] at hrow
    exact Int64.le_trans (le_highestOf hrow) (Migrator.highest_le_floor _ base)
  | created h hread =>
    intro row hrow
    rw [Database.records, h] at hrow
    cases hrow

end

end Backend

/-! ### Visits -/

namespace Directory
variable {d : Directory}

/-- A file is listed under its name. -/
theorem sublist_listedUp (d : Directory) :
    (d.listedUp.map (·.fileName)).Sublist ((d.items?.getD []).map (·.1)) := by
  rw [listedUp]
  induction d.items?.getD [] with
  | nil => exact List.Sublist.refl _
  | cons item items ih =>
    rw [List.filterMap_cons, List.map_cons]
    cases hitem : File.ofItem? .up item with
    | none => exact ih.cons item.1
    | some f =>
      rw [File.eq_of_ofItem? hitem]
      exact ih.cons_cons f.fileName

end Directory

/-- An install at some time, over a directory in which no two items have one name. -/
structure Visit where
  directory : Directory
  clock : Clock
  distinct : ((directory.items?.getD []).map (·.1)).Nodup

/-- Pending files make a batch, some of them left out or not. -/
theorem isBatch_of_pending (v : Visit) {floor : Int64} {scripts : List (File × String)}
    (hpending : Pending v.directory floor scripts) {before rows : List Tracked}
    (hbefore : ∀ row ∈ before, row.number ≤ floor)
    (hrows : rows.Sublist (rowsOf v.clock scripts)) : IsBatch before rows := by
  have hfile : ∀ row ∈ rows, ∃ p ∈ scripts, ∃ now, p.1.row now = row := fun row hrow =>
    exists_of_mem_rowsOf (hrows.subset hrow)
  refine ⟨?_, ?_, ?_, ?_⟩
  · have hnumbers : ((rowsOf v.clock scripts).map (·.number)).Pairwise (· ≤ ·) := by
      rw [map_rowsOf fun file now => rfl]
      exact List.pairwise_map.2 ((List.pairwise_map.1 hpending.ordered).imp File.number_le_of_le)
    exact (List.pairwise_map.1 hnumbers).sublist hrows
  · intro row hrow row' hrow'
    obtain ⟨p, hp, now, rfl⟩ := hfile row' hrow'
    exact Int64.lt_of_le_of_lt (hbefore row hrow) (hpending.mem hp).2
  · intro row hrow
    obtain ⟨p, hp, now, rfl⟩ := hfile row hrow
    obtain ⟨item, -, hitem⟩ := List.mem_filterMap.1 (hpending.mem hp).1
    exact ⟨p.1.label, File.label_of_ofItem? hitem, rfl⟩
  · have hnames : ((scripts.map (·.1)).map (·.fileName)).Nodup := by
      refine (hpending.perm.map _).nodup_iff.2 ?_
      have hlisted := v.directory.sublist_listedUp.nodup v.distinct
      exact (List.filter_sublist.map _).nodup hlisted
    rw [List.map_map] at hnames
    refine (hrows.map _).nodup ?_
    rw [map_rowsOf fun file now => rfl]
    exact hnames

namespace Backend
variable {ctx : Context} {D : Type} (b : Backend ctx.dialect D)

variable (ctx) in
/-- The state after a visit, however it ends. -/
def visit (s : b.State) (v : Visit) : b.State :=
  (run b.answer ((Migrator.mk ctx v.directory false).install v.clock) s).2

variable (ctx) in
/-- The state after visits, one after another. -/
def visitAll (visits : List Visit) (s : b.State) : b.State :=
  visits.foldl (b.visit ctx) s

variable {b}

/-- **A visit adds a batch.** -/
theorem exists_batch_visit {v : Visit}
    (hfit : ∀ base, v.directory.IsBase base → b.Harmless v.directory base) {s : b.State}
    (hs : b.saved s = none) :
    b.saved (b.visit ctx s v) = none ∧
      ∃ rows, (b.current (b.visit ctx s v)).records = (b.current s).records ++ rows ∧
        IsBatch (b.current s).records rows := by
  rw [visit, Migrator.install_of_not_reset rfl]
  cases hfound : (Migrator.mk ctx v.directory false).upFiles with
  | error failure =>
    rw [Migrator.installFrom, hfound]
    exact ⟨hs, [], (List.append_nil _).symm, .nil _⟩
  | ok found =>
    obtain ⟨files, base⟩ := found
    have hfit := hfit base (Migrator.isBase_of_upFiles hfound)
    cases hrun : run b.answer ((Migrator.mk ctx v.directory false).installFrom v.clock) s with
    | mk r u =>
      obtain ⟨hu, ⟨-, hleft⟩ |
        ⟨start, floor, bootstrapped, scripts, -, hprepared, hscripts, hdone⟩⟩ :=
        run_installFrom hfit.uncontrolled hfound hs hrun
      · refine ⟨hu, [], ?_, .nil _⟩
        rw [List.append_nil]
        rcases hleft with hleft | ⟨floor, hprepared⟩
        · exact congrArg Database.records hleft
        · exact hprepared.records_eq hfit
      · have hpending := Migrator.pending_of_readAll hfound hscripts
        have hkeeps : ∀ p ∈ scripts, ∀ db, (b.play p.2 db).records = db.records := by
          intro p hp
          obtain ⟨hlisted, habove⟩ := hpending.mem hp
          exact hfit.keeps p.1 hlisted (Int64.lt_of_le_of_lt hprepared.base_le habove) p.2
            (hpending.read p hp)
        obtain ⟨rows, hrows, happlied⟩ := exists_records_applyAll v.clock hkeeps start
        refine ⟨hu, rows, ?_, isBatch_of_pending v hpending hprepared.le_floor hrows⟩
        rw [hdone, happlied, hprepared.records_eq hfit]

/-- Visits behind others. -/
theorem exists_batches_visitAll {visits : List Visit}
    (hfit : ∀ v ∈ visits, ∀ base, v.directory.IsBase base → b.Harmless v.directory base)
    {s : b.State} (hs : b.saved s = none) {before : List (List Tracked)} (hbefore : InOrder before)
    (hrecords : (b.current s).records = before.flatten) :
    ∃ batches, batches.length = visits.length ∧ InOrder (before ++ batches) ∧
      ∀ n, (b.current (b.visitAll ctx (visits.take n) s)).records =
        (before ++ batches.take n).flatten := by
  induction visits generalizing s before with
  | nil =>
    refine ⟨[], rfl, (List.append_nil before).symm ▸ hbefore, fun n => ?_⟩
    rw [List.take_nil, List.take_nil, List.append_nil]
    exact hrecords
  | cons v visits ih =>
    obtain ⟨hv, hvisits⟩ := List.forall_mem_cons.1 hfit
    obtain ⟨hsaved, rows, hrows, hbatch⟩ := exists_batch_visit hv hs
    rw [hrecords] at hrows hbatch
    obtain ⟨batches, hlength, horder, hafter⟩ := ih hvisits hsaved (hbefore.concat hbatch)
      (hrows.trans (by rw [List.flatten_append, List.flatten_singleton]))
    rw [List.append_assoc] at horder
    refine ⟨rows :: batches, congrArg Nat.succ hlength, horder, fun n => ?_⟩
    cases n with
    | zero =>
      rw [List.take_zero, List.take_zero, List.append_nil]
      exact hrecords
    | succ n =>
      rw [List.take_succ_cons, List.take_succ_cons]
      refine (hafter n).trans ?_
      rw [List.append_assoc]
      rfl

/-- **Records are in order.**  On a database without records let there be any number of installs
over any directories, each of which may fail.  Then each has added a batch of records, so that after
every one of them the numbers of all records do not fall, two records have one number only if they
are of one batch, the numbers of a later batch are above those of all before, and no file name is
recorded twice. -/
theorem records_in_order {visits : List Visit}
    (hfit : ∀ v ∈ visits, ∀ base, v.directory.IsBase base → b.Harmless v.directory base)
    {s : b.State} (hs : b.saved s = none) (hnone : (b.current s).records = []) :
    ∃ batches : List (List Tracked), batches.length = visits.length ∧
      (∀ n, (b.current (b.visitAll ctx (visits.take n) s)).records =
        (batches.take n).flatten) ∧
      (batches.flatten.Pairwise fun row row' => row.number ≤ row'.number) ∧
      (batches.Pairwise fun rows rows' =>
        ∀ row ∈ rows, ∀ row' ∈ rows', row.number < row'.number) ∧
      (batches.flatten.map (·.fileName)).Nodup := by
  obtain ⟨batches, hlength, horder, hafter⟩ := exists_batches_visitAll hfit hs .nil hnone
  exact ⟨batches, hlength, hafter, horder.ascending, horder.rising, horder.distinct⟩

end Backend

/-! ### A directory visited before and after it has grown -/

namespace Journal

theorem harmless_directory {f : File} (hf : directory.IsBase f) : journals.Harmless directory f :=
  (repeatable_directory hf).toOrderly.harmless

theorem harmless_earlier {f : File} (hf : earlier.IsBase f) : journals.Harmless earlier f :=
  (Backend.Repeatable.of_grows earlier_grows (fun _ => repeatable_directory) hf).toOrderly.harmless

/-- The first visit fails behind the base, the second one applies two files, and the third finds
one of them gone. -/
def visits : List Visit :=
  [⟨earlier, default, by decide +kernel⟩, ⟨directory, default, by decide +kernel⟩,
    ⟨earlier, default, by decide +kernel⟩]

theorem visits_in_order :
    let visited := fun n =>
      (journals.visitAll migrator.context (visits.take n) (blank [false, false, true])).database
    (visited 1).records = [] ∧ (visited 3).records.map (·.number) = [2, 10] ∧
      ∃ batches : List (List Tracked), batches.length = 3 ∧
        (∀ n, (visited n).records = (batches.take n).flatten) ∧
        (batches.flatten.Pairwise fun row row' => row.number ≤ row'.number) ∧
        (batches.Pairwise fun rows rows' =>
          ∀ row ∈ rows, ∀ row' ∈ rows', row.number < row'.number) ∧
        (batches.flatten.map (·.fileName)).Nodup := by
  have hfit : ∀ v ∈ visits, ∀ base, v.directory.IsBase base →
      journals.Harmless v.directory base := by
    simp only [visits, List.forall_mem_cons, List.not_mem_nil, false_implies, implies_true,
      and_true]
    exact ⟨fun _ => harmless_earlier, fun _ => harmless_directory, fun _ => harmless_earlier⟩
  have hsaved : journals.saved (blank [false, false, true]) = none := rfl
  have hnone : (journals.current (blank [false, false, true])).records = [] := rfl
  refine ⟨?_, ?_,
    @Backend.records_in_order migrator.context _ journals visits hfit _ hsaved hnone⟩
  · change (run journals.answer (earlierMigrator.install default)
      (blank [false, false, true])).2.database.records = []
    rw [Migrator.install_of_not_reset rfl, Migrator.installFrom, upFiles_earlier]
    decide +kernel
  · change (run journals.answer (earlierMigrator.install default)
      (run journals.answer (migrator.install default)
        (run journals.answer (earlierMigrator.install default)
          (blank [false, false, true])).2).2).2.database.records.map (·.number) = _
    have hearlier : earlierMigrator.install default = earlierMigrator.installFrom default :=
      Migrator.install_of_not_reset rfl
    have hdirectory : migrator.install default = migrator.installFrom default :=
      Migrator.install_of_not_reset rfl
    rw [hearlier, hdirectory, Migrator.installFrom, upFiles_earlier, Migrator.installFrom,
      upFiles_migrator]
    decide +kernel

end Journal

end RecordLayer.Migration
