import RecordLayer.Proofs.Migration.Install

/-!
# Migrations — Taking down

Down files run from the highest number to the lowest, each in a transaction of its own, which also
removes the records of its number, unless that is the lowest number of all down files.  The lowest
is taken for the base, which has no record; but where the base has no down file, the lowest number
is that of a file that is recorded.  So the records that are left are those of other numbers than
the reverted ones, and those of the lowest number (`dropAll_keeps_lowest`).
-/

namespace RecordLayer.Migration
open Dialogue

namespace Directory

/-- The down files of a directory, in the order of its listing. -/
def listedDown (d : Directory) : List File :=
  (d.items?.getD []).filterMap (File.ofItem? .down)

/-- The down files from the highest number to the lowest. -/
def downwards (d : Directory) : List File :=
  (d.listedDown.mergeSort File.le).reverse

/-- The lowest number of the down files. -/
def lowestDown? (d : Directory) : Option Int64 :=
  (d.listedDown.mergeSort File.le).head?.map File.number

theorem mem_downwards {d : Directory} {f : File} : f ∈ d.downwards ↔ f ∈ d.listedDown :=
  List.mem_reverse.trans (List.mergeSort_perm _ _).mem_iff

theorem eq_lowestDown?_iff {d : Directory} {f : File} (hf : f ∈ d.listedDown) :
    some f.number = d.lowestDown? ↔ ∀ g ∈ d.listedDown, f.number ≤ g.number := by
  have hperm := List.mergeSort_perm d.listedDown File.le
  have hsorted := @List.pairwise_mergeSort File File.le (fun _ _ _ => File.le_trans)
    File.le_total d.listedDown
  rw [lowestDown?]
  cases hfiles : d.listedDown.mergeSort File.le with
  | nil =>
    rw [hfiles] at hperm
    rw [hperm.symm.eq_nil] at hf
    cases hf
  | cons first rest =>
    rw [hfiles] at hperm hsorted
    have hfirst : ∀ g ∈ d.listedDown, first.number ≤ g.number := by
      intro g hg
      rcases List.mem_cons.1 (hperm.mem_iff.2 hg) with rfl | hg
      · exact Int64.le_refl _
      · exact File.number_le_of_le ((List.pairwise_cons.1 hsorted).1 g hg)
    rw [List.head?_cons, Option.map_some, Option.some_inj]
    constructor
    · intro heq
      rwa [heq]
    · intro hle
      exact Int64.le_antisymm (hle first (hperm.mem_iff.1 List.mem_cons_self)) (hfirst f hf)

end Directory

/-- The down files run downwards, and the lowest of them is not forgotten. -/
theorem Migrator.dropAll_eq (m : Migrator) : m.dropAll = match m.directory.items? with
    | none => .done (.error (.io "No such file or directory (os error 2)"))
    | some _ => (Work.ofSession m.highest).bind fun
      | .error failure => .done (.error failure)
      | .ok highest =>
        m.revertFiles highest.isSome m.directory.lowestDown? m.directory.downwards := by
  rw [dropAll, Directory.discover, Directory.lowestDown?, Directory.downwards,
    Directory.listedDown]
  cases m.directory.items? with
  | none => rfl
  | some items => rfl

/-- The database without the records of a number. -/
def Database.forget {D : Type} (db : Database D) (number : Int64) : Database D :=
  { db with tracking := db.tracking.map (·.filter (·.number ≠ number)) }

/-! ### The statement that removes records -/

/-- The statement that removes the records of a number, which is bound. -/
def forgetText (dialect : Dialect) : String :=
  "DELETE FROM ra_migrations WHERE number = " ++ dialect.placeholder 1

theorem expand_forgetStatement (dialect : Dialect) (number : Int64) :
    Sql.expand Migrator.forgetStatement ((∅ : Params).insert "number" (.int number)) dialect =
      .ok (forgetText dialect, [.int number]) := by
  have hbound : ((∅ : Params).insert "number" (.int number)).get? "number" =
      some (.int number) := by
    rw [NameMap.get?_insert, if_pos rfl]
  have hparam : Sql.Expands ((∅ : Params).insert "number" (.int number)) dialect 0
      (':' :: "number".toList ++ []) ((Sql.slot dialect 1 (.int number)).toList ++ [])
      [.int number] :=
    Sql.Expands.nil.param (by decide) hbound Text.endsWord_nil
  have h := hparam.plain (Text.endsWord_cons (by decide) _)
    "DELETE FROM ra_migrations WHERE number = ".toList (by decide)
  have htext : Migrator.forgetStatement.toList =
      "DELETE FROM ra_migrations WHERE number = ".toList ++ (':' :: "number".toList ++ []) := by
    decide
  rw [← htext, List.append_nil, ← String.toList_append] at h
  rw [Sql.expand_of_expands h, String.ofList_toList]
  rfl

namespace Backend
variable {dialect : Dialect} {D : Type} (b : Backend dialect D)

/-- The statement that removes the records of a number does so. -/
structure Forgets : Prop where
  forget : ∀ {s s' db number x}, b.saved s = some db →
    b.answer (.statement (.execute (forgetText dialect) [.int number])) s = (x, s') →
    b.saved s' = some db ∧ ∀ done, x = .ok done → b.current s' = (b.current s).forget number

/-- What is asked of down files: no statement opens or ends a transaction, and a script leaves the
tracking table alone or drops it. -/
structure Reversible (d : Directory) : Prop where
  uncontrolled : b.Uncontrolled d.listedDown
  spares : ∀ f ∈ d.listedDown, ∀ script, f.content.read = .ok script → ∀ db,
    (b.play script db).tracking = db.tracking ∨ (b.play script db).tracking = none

/-- What a file that is reverted makes of a database. -/
def revert (forget : Bool) (file : File) (script : String) (db : Database D) : Database D :=
  if forget then (b.play script db).forget file.number else b.play script db

/-- What files that are reverted make of a database, one after another; the lowest number is not
forgotten. -/
def revertAll (lowest : Option Int64) : List (File × String) → Database D → Database D
  | [],                     db => db
  | (file, script) :: rest, db =>
    revertAll lowest rest (b.revert (some file.number != lowest) file script db)

/-- How reverting files ends: the first of them have been reverted, and all of them if it ends
well. -/
structure Reverted (lowest : Option Int64) (files : List File) (reverted : List (File × String))
    (db db' : Database D) (r : Except Failure (List String)) : Prop where
  first : reverted.map (·.1) <+: files
  read : ∀ p ∈ reverted, p.1.content.read = .ok p.2
  result : db' = b.revertAll lowest reverted db
  complete : ∀ names, r = .ok names →
    reverted.map (·.1) = files ∧ names = files.map (·.fileName)

/-! ### What is left of the records -/

variable {b}

/-- The records that a reverted file leaves of those that its script leaves. -/
theorem tracking_revert (forget : Bool) (file : File) (script : String) (db : Database D) :
    (b.revert forget file script db).tracking = (b.play script db).tracking.map
      (·.filter fun row => forget = false ∨ row.number ≠ file.number) := by
  cases forget with
  | true => simp [revert, Database.forget]
  | false => simp [revert]

section
variable {lowest : Option Int64} {reverted : List (File × String)}
  (h : ∀ p ∈ reverted, ∀ db,
    (b.play p.2 db).tracking = db.tracking ∨ (b.play p.2 db).tracking = none)

include h

/-- A tracking table that is gone stays so. -/
theorem tracking_revertAll_of_none {db : Database D} (hdb : db.tracking = none) :
    (b.revertAll lowest reverted db).tracking = none := by
  induction reverted generalizing db with
  | nil => exact hdb
  | cons p rest ih =>
    obtain ⟨hp, hrest⟩ := List.forall_mem_cons.1 h
    have hplayed : (b.play p.2 db).tracking = none := by
      rcases hp db with hp | hp
      · rw [hp, hdb]
      · exact hp
    refine ih hrest ?_
    rw [tracking_revert, hplayed, Option.map_none]

/-- Records are removed if their number is that of a reverted file and not the lowest. -/
theorem tracking_revertAll {db : Database D} {records left : List Tracked}
    (hdb : db.tracking = some records)
    (hleft : (b.revertAll lowest reverted db).tracking = some left) :
    left = records.filter fun row =>
      row.number ∉ reverted.map (·.1.number) ∨ some row.number = lowest := by
  induction reverted generalizing db records with
  | nil =>
    rw [revertAll, hdb] at hleft
    cases hleft
    simp
  | cons p rest ih =>
    obtain ⟨hp, hrest⟩ := List.forall_mem_cons.1 h
    have hstep : (b.revert (some p.1.number != lowest) p.1 p.2 db).tracking = _ :=
      tracking_revert _ _ _ _
    rcases hp db with hp | hp
    · rw [hp, hdb, Option.map_some] at hstep
      rw [ih hrest hstep hleft, List.filter_filter]
      refine List.filter_congr fun row _ => ?_
      rw [← Bool.decide_and, decide_eq_decide, List.map_cons, List.mem_cons]
      by_cases hnumber : row.number = p.1.number
      · simpa [hnumber] using Or.inr
      · simp [hnumber]
    · rw [hp, Option.map_none] at hstep
      rw [revertAll, tracking_revertAll_of_none hrest hstep] at hleft
      cases hleft

end

/-! ### Reverting a file -/

section
variable {m : Migrator} {b : Backend m.context.dialect D} (hforgets : b.Forgets)

include hforgets

/-- A session that removes records and ends as the removal did. -/
theorem within_forget (fileName : String) (number : Int64) :
    b.Within (m.context.execute Migrator.forgetStatement
        ((∅ : Params).insert "number" (.int number)) >>= fun forgotten =>
          match forgotten with
          | .error failure => .done (.error (.migration fileName failure))
          | .ok _ => .done (.ok ()))
      fun db _ db' => db' = db.forget number := by
  refine ⟨fun {s s' db r} hs hrun => ?_⟩
  simp only [Context.execute, Session.exchange, expand_forgetStatement] at hrun
  change run b.onStatements (.ask (.execute (forgetText m.context.dialect) [.int number]) _) s =
    _ at hrun
  rw [run] at hrun
  cases hanswer : b.onStatements (.execute (forgetText m.context.dialect) [.int number]) s with
  | mk x t =>
    rw [hanswer] at hrun
    obtain ⟨hsaved, hcurrent⟩ := hforgets.forget hs hanswer
    cases x with
    | error failure =>
      cases hrun
      exact ⟨hsaved, fun a ha => by cases ha⟩
    | ok done =>
      cases hrun
      exact ⟨hsaved, fun _ _ => hcurrent done rfl⟩

theorem within_revertFile (forget : Bool) {file : File} {script : String}
    (hscript : ∀ sql ∈ Sql.statements script, ¬ b.controls sql) :
    b.Within (m.revertFile file script forget) fun db _ db' =>
      db' = b.revert forget file script db := by
  rw [Migrator.revertFile]
  cases forget with
  | true =>
    refine Within.mono (Within.bind (within_runStatements file.fileName hscript) (fun _ => rfl)
      fun _ => within_forget hforgets file.fileName file.number) ?_
    rintro db _ db' ⟨_, mid, rfl, rfl⟩
    rfl
  | false =>
    refine Within.mono (Within.bind (within_runStatements file.fileName hscript) (fun _ => rfl)
      fun _ => within_ok ()) ?_
    rintro db _ db' ⟨_, mid, rfl, -, rfl⟩
    rfl

omit hforgets in
/-- A run that fails at its first file reverts nothing. -/
theorem Reverted.failed {lowest : Option Int64} {files : List File} {db db' : Database D}
    {failure : Failure} (h : db' = db) : b.Reverted lowest files [] db db' (.error failure) where
  first := List.nil_prefix
  read := fun p hp => by cases hp
  result := h
  complete := fun names h => by cases h

omit hforgets in
theorem Reverted.cons {lowest : Option Int64} {file : File} {script : String} {rest : List File}
    {reverted : List (File × String)} {db db' : Database D} {r : Except Failure (List String)}
    (hread : file.content.read = .ok script)
    (h : b.Reverted lowest rest reverted (b.revert (some file.number != lowest) file script db)
      db' r) :
    b.Reverted lowest (file :: rest) ((file, script) :: reverted) db db'
      (r.map (file.fileName :: ·)) where
  first := (List.prefix_cons_inj file).2 h.first
  read := List.forall_mem_cons.2 ⟨hread, h.read⟩
  result := h.result
  complete := fun names hnames => by
    cases r with
    | error failure => cases hnames
    | ok more =>
      obtain ⟨hfiles, rfl⟩ := h.complete more rfl
      cases hnames
      exact ⟨congrArg (file :: ·) hfiles, rfl⟩

/-- **Files are reverted one by one**, up to the first that fails. -/
theorem run_revertFiles {lowest : Option Int64} {files : List File}
    (hcontrols : b.Uncontrolled files) {s s' : b.State} (hs : b.saved s = none)
    {r : Except Failure (List String)}
    (hrun : run b.answer (m.revertFiles true lowest files) s = (r, s')) :
    b.saved s' = none ∧
      ∃ reverted, b.Reverted lowest files reverted (b.current s) (b.current s') r := by
  induction files generalizing s s' r with
  | nil =>
    cases hrun
    refine ⟨hs, [], List.nil_prefix, (fun p hp => by cases hp), rfl, fun names h => ?_⟩
    exact ⟨rfl, (Except.ok.inj h).symm⟩
  | cons file rest ih =>
    obtain ⟨hfile, hrest⟩ := List.forall_mem_cons.1 hcontrols
    rw [Migrator.revertFiles] at hrun
    cases hread : file.content.read with
    | error failure =>
      rw [hread] at hrun
      cases hrun
      exact ⟨hs, [], .failed rfl⟩
    | ok script =>
      rw [hread] at hrun
      simp only [run_andThen, Bool.true_and] at hrun
      cases hreverted : run b.answer
          (Work.transaction (m.revertFile file script (some file.number != lowest))) s with
      | mk x t =>
        rw [hreverted] at hrun
        obtain ⟨ht, hend⟩ := run_transaction
          (within_revertFile hforgets _ (hfile script hread)) hs hreverted
        rcases hend with ⟨⟨failure, rfl⟩, hcurrent⟩ | ⟨_, rfl, hcurrent⟩
        · cases hrun
          exact ⟨ht, [], .failed hcurrent⟩
        · cases hmore : run b.answer (m.revertFiles true lowest rest) t with
          | mk y u =>
            obtain ⟨hu, reverted, hreverts⟩ := ih hrest ht hmore
            simp only [run_andThen, hmore] at hrun
            cases hrun
            rw [hcurrent] at hreverts
            exact ⟨hu, _, hreverts.cons hread⟩

theorem run_dropAll (hcontrols : b.Uncontrolled m.directory.listedDown) {s s' : b.State}
    (hs : b.saved s = none) (htable : (b.current s).tracking ≠ none)
    {r : Except Failure (List String)} (hrun : run b.answer m.dropAll s = (r, s')) :
    b.saved s' = none ∧ ∃ reverted, b.Reverted m.directory.lowestDown? m.directory.downwards
      reverted (b.current s) (b.current s') r := by
  rw [Migrator.dropAll_eq] at hrun
  cases hitems : m.directory.items? with
  | none =>
    rw [hitems] at hrun
    cases hrun
    exact ⟨hs, [], .failed rfl⟩
  | some items =>
    rw [hitems] at hrun
    simp only [run_bind, run_ofSession] at hrun
    cases hhighest : run b.onStatements m.highest s with
    | mk x t =>
      rw [hhighest] at hrun
      obtain ⟨hcurrent, ht, hx⟩ := run_highest hs hhighest
      cases x with
      | error failure =>
        cases hrun
        exact ⟨ht, [], .failed hcurrent⟩
      | ok highest =>
        have htracked : highest.isSome = true := by
          rw [hx highest rfl, Option.isSome_map]
          exact Option.isSome_iff_ne_none.2 htable
        simp only [htracked] at hrun
        rw [← hcurrent]
        exact run_revertFiles hforgets
          (fun f hf => hcontrols f (Directory.mem_downwards.1 hf)) ht hrun

/-- **Taking down keeps the records of the lowest number.**  On a database with a tracking table the
down files run from the highest number to the lowest, up to the first that fails.  If there is a
tracking table afterwards, it has lost the records of exactly those numbers that have been reverted
and are not the lowest of all down files. -/
theorem dropAll_keeps_lowest (hfit : b.Reversible m.directory) {s s' : b.State}
    (hs : b.saved s = none) {records : List Tracked}
    (htable : (b.current s).tracking = some records) {r : Except Failure (List String)}
    (hrun : run b.answer m.dropAll s = (r, s')) :
    b.saved s' = none ∧ ∃ reverted : List (File × String),
      b.Reverted m.directory.lowestDown? m.directory.downwards reverted (b.current s)
        (b.current s') r ∧
      ∀ left, (b.current s').tracking = some left → left = records.filter fun row =>
        row.number ∉ reverted.map (·.1.number) ∨
          ∀ f ∈ m.directory.listedDown, row.number ≤ f.number := by
  obtain ⟨hsaved, reverted, hreverted⟩ :=
    run_dropAll hforgets hfit.uncontrolled hs (by rw [htable]; exact Option.some_ne_none _) hrun
  refine ⟨hsaved, reverted, hreverted, fun left hleft => ?_⟩
  have hlisted : ∀ p ∈ reverted, p.1 ∈ m.directory.listedDown := fun p hp =>
    Directory.mem_downwards.1 (hreverted.first.subset (List.mem_map_of_mem hp))
  have hspares : ∀ p ∈ reverted, ∀ db,
      (b.play p.2 db).tracking = db.tracking ∨ (b.play p.2 db).tracking = none := fun p hp =>
    hfit.spares p.1 (hlisted p hp) p.2 (hreverted.read p hp)
  rw [hreverted.result] at hleft
  rw [tracking_revertAll hspares htable hleft]
  refine List.filter_congr fun row _ => ?_
  rw [decide_eq_decide]
  -- among the reverted numbers, the lowest is the one that is not above any
  by_cases hmem : row.number ∈ reverted.map (·.1.number)
  · obtain ⟨p, hp, hnumber⟩ := List.mem_map.1 hmem
    rw [← hnumber, Directory.eq_lowestDown?_iff (hlisted p hp)]
  · exact iff_of_true (.inl hmem) (.inl hmem)

end

end Backend

/-! ### A directory whose base has no down file -/

namespace Journal

/-- A statement with nothing but a number bound removes the records of the number. -/
def answerForgetting : Answerer Request Request.Answer Journal
  | .statement (.execute _ [.int number]), j =>
    (.ok ⟨1, none⟩, { j with database := j.database.forget number })
  | q, j => answer q j

end Journal

open Journal in
/-- Journals from which records can be removed are a backend. -/
def forgettingJournals : Backend .sqlite (List String) where
  State := Journal
  answer := answerForgetting
  current := database
  saved := saved
  effect := effect
  controls := journals.controls
  opening_ok := journals.opening_ok
  opening_error := journals.opening_error
  commit_ok := journals.commit_ok
  commit_error := journals.commit_error
  rollback := journals.rollback
  script := journals.script
  record := journals.record
  highest_ok := journals.highest_ok
  highest_error := journals.highest_error

namespace Journal

theorem forgets : forgettingJournals.Forgets where
  forget := by
    intro s s' db number x hs hanswer
    cases hanswer
    exact ⟨hs, fun _ _ => rfl⟩

theorem playAll_forgetting (statements : List String) (db : Database (List String)) :
    forgettingJournals.playAll statements db = journals.playAll statements db := by
  induction statements generalizing db with
  | nil => rfl
  | cons sql rest ih => exact ih _

/-- Scripts that do not create the tracking table leave it alone. -/
theorem reversible {d : Directory}
    (hcontrols : ∀ f ∈ d.listedDown, ∀ sql ∈ f.statements, ¬ journals.controls sql)
    (hcreate : ∀ f ∈ d.listedDown, createTracking ∉ f.statements) :
    forgettingJournals.Reversible d := by
  refine ⟨fun f hf script h => ?_, fun f hf script h db => .inl ?_⟩
  · rw [← File.statements_eq h]
    exact hcontrols f hf
  · have hplayed : forgettingJournals.play script db =
        { db with schema := db.schema ++ f.statements } := by
      rw [Backend.play, ← File.statements_eq h, playAll_forgetting, playAll_eq (hcreate f hf)]
    rw [hplayed]

def earlyDown : File :=
  ⟨⟨2, "early", .down⟩, "2.early.down.sql", .text "DROP TABLE files"⟩

def lateDown : File :=
  ⟨⟨10, "late", .down⟩, "10.late.down.sql", .text "CREATE TABLE jobs (id)"⟩

/-- The three up files, and down files for all but the base. -/
def baseless : Migrator :=
  ⟨⟨.sqlite, .builtin⟩, ⟨"migrations", some ([base, early, late, earlyDown, lateDown].map
    fun f => (f.fileName, .file f.content))⟩, false⟩

/-- A database on which all up files have run. -/
def installed : Journal :=
  ⟨⟨["CREATE TABLE jobs (id)"] ++ early.statements ++ late.statements,
    some [early.row default, late.row default]⟩, none, []⟩

theorem listedDown_baseless : baseless.directory.listedDown = [earlyDown, lateDown] := by
  decide +kernel

theorem sorted_baseless :
    baseless.directory.listedDown.mergeSort File.le = [earlyDown, lateDown] := by
  rw [listedDown_baseless, List.mergeSort_of_pairwise (by decide +kernel)]

theorem lowestDown?_baseless : baseless.directory.lowestDown? = some 2 := by
  rw [Directory.lowestDown?, sorted_baseless]
  rfl

theorem downwards_baseless : baseless.directory.downwards = [lateDown, earlyDown] := by
  rw [Directory.downwards, sorted_baseless]
  rfl

theorem reversible_baseless : forgettingJournals.Reversible baseless.directory := by
  have hearly : earlyDown.statements = ["DROP TABLE files"] := by decide +kernel
  have hlate : lateDown.statements = ["CREATE TABLE jobs (id)"] := by decide +kernel
  refine reversible ?_ ?_
  · rw [listedDown_baseless]
    simp only [List.forall_mem_cons, hearly, hlate]
    decide +kernel
  · rw [listedDown_baseless]
    simp only [List.forall_mem_cons, hearly, hlate]
    decide +kernel

/-- Both files are reverted, and the record of the lower one is left. -/
theorem early_still_recorded :
    let dropped := run forgettingJournals.answer baseless.dropAll installed
    dropped.1 = .ok ["10.late.down.sql", "2.early.down.sql"] ∧
      dropped.2.database.tracking = some [early.row default] := by
  rw [Migrator.dropAll_eq, lowestDown?_baseless, downwards_baseless]
  decide +kernel

theorem baseless_keeps_early :
    let dropped := run forgettingJournals.answer baseless.dropAll installed
    ∃ reverted, forgettingJournals.Reverted (some 2) [lateDown, earlyDown] reverted
        installed.database dropped.2.database dropped.1 ∧
      ∀ left, dropped.2.database.tracking = some left →
        left = [early.row default, late.row default].filter fun row =>
          row.number ∉ reverted.map (·.1.number) ∨
            ∀ f ∈ baseless.directory.listedDown, row.number ≤ f.number := by
  intro dropped
  have hrun : run forgettingJournals.answer baseless.dropAll installed =
      (dropped.1, dropped.2) := rfl
  obtain ⟨-, reverted, hreverted, hleft⟩ :=
    Backend.dropAll_keeps_lowest (m := baseless) forgets reversible_baseless rfl rfl hrun
  rw [lowestDown?_baseless, downwards_baseless] at hreverted
  exact ⟨reverted, hreverted, hleft⟩

end Journal

end RecordLayer.Migration
