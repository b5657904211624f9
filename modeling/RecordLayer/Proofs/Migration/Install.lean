import RecordLayer.Proofs.Migration.Backend
import RecordLayer.Proofs.Migration.Found

/-!
# Migrations — An install is all or nothing

An install asks for the highest number, runs the base in a transaction of its own if there is no
tracking table, and runs what is pending in another one.  On a backend whose transactions are atomic
it therefore ends in one of three ways: nothing has changed, the base has run, or the base and all
that is pending have run and are recorded (`install_all_or_nothing`).

A failure may come anywhere.  Inside a transaction a session is followed by `Within`, for which a
failed statement counts as nothing; what the transaction makes of it is `run_transaction`.
-/

namespace RecordLayer.Migration
open Dialogue Catalog

theorem Migrator.install_of_not_reset {m : Migrator} (hreset : m.reset = false) {clock : Clock} :
    m.install clock = m.installFrom clock := by
  rw [install, hreset]
  rfl

/-- The row that records a file. -/
def File.row (f : File) (now : Instant) : Tracked :=
  ⟨f.number, f.fileName, some now⟩

/-- The rows that record files, each at a reading of the clock. -/
def rowsOf (clock : Clock) (scripts : List (File × String)) : List Tracked :=
  scripts.mapIdx fun n p => p.1.row (clock n)

section
variable {clock : Clock} {scripts : List (File × String)}

@[simp] theorem rowsOf_nil : rowsOf clock [] = [] := rfl

theorem rowsOf_cons (p : File × String) :
    rowsOf clock (p :: scripts) = p.1.row (clock 0) :: rowsOf clock.later scripts :=
  List.mapIdx_cons

/-- What a row says but for its time stamp is said by its file. -/
theorem map_rowsOf {α : Type} {f : Tracked → α} {g : File → α}
    (h : ∀ file now, f (file.row now) = g file) :
    (rowsOf clock scripts).map f = scripts.map fun p => g p.1 := by
  induction scripts generalizing clock with
  | nil => rfl
  | cons p rest ih => rw [rowsOf_cons, List.map_cons, List.map_cons, h, ih]

theorem exists_of_mem_rowsOf {row : Tracked} (h : row ∈ rowsOf clock scripts) :
    ∃ p ∈ scripts, ∃ now, p.1.row now = row := by
  obtain ⟨n, hn, rfl⟩ := List.mem_mapIdx.1 h
  exact ⟨_, List.getElem_mem hn, clock n, rfl⟩

end

namespace Backend
variable {dialect : Dialect} {D : Type} (b : Backend dialect D)

/-! ### What scripts make of a database -/

/-- What statements make of a database, one after another. -/
def playAll : List String → Database D → Database D
  | [],          db => db
  | sql :: rest, db => playAll rest (b.effect sql db)

def play (script : String) (db : Database D) : Database D :=
  b.playAll (Sql.statements script) db

/-- What files make of a database, one after another, each recorded right after it has run. -/
def applyAll (clock : Clock) : List (File × String) → Database D → Database D
  | [],                     db => db
  | (file, script) :: rest, db =>
    applyAll clock.later rest ((b.play script db).record (file.row (clock 0)))

/-- No statement of the files opens or ends a transaction. -/
def Uncontrolled (files : List File) : Prop :=
  ∀ f ∈ files, ∀ script, f.content.read = .ok script →
    ∀ sql ∈ Sql.statements script, ¬ b.controls sql

/-- What is asked of up files: no statement opens or ends a transaction, the base creates an empty
tracking table where there is none, and no file above it touches that table. -/
structure Orderly (d : Directory) (base : File) : Prop where
  uncontrolled : ∀ f ∈ d.listedUp, ∀ script, f.content.read = .ok script →
    ∀ sql ∈ Sql.statements script, ¬ b.controls sql
  creates : ∀ script, base.content.read = .ok script → ∀ db, db.tracking = none →
    (b.play script db).tracking = some []
  apart : ∀ f ∈ d.listedUp, base.number < f.number → ∀ script, f.content.read = .ok script →
    ∀ db, (b.play script db).tracking = db.tracking

/-- What goes before the pending files: the base runs if there is no tracking table.  The number
is that above which files are pending, the flag says whether the base has run. -/
inductive Prepared (base : File) (db : Database D) : Database D → Int64 → Bool → Prop where
  | found {records} (h : db.tracking = some records) :
      Prepared base db db (Migrator.floor (highestOf records) base) false
  | created {script} (h : db.tracking = none) (hread : base.content.read = .ok script) :
      Prepared base db (b.play script db) base.number true

variable {b}

theorem Orderly.isUncontrolled {d : Directory} {base : File} (hfit : b.Orderly d base) :
    b.Uncontrolled d.listedUp :=
  hfit.uncontrolled

theorem Prepared.eq_or_created {base : File} {db start : Database D} {floor : Int64}
    {bootstrapped : Bool} (h : b.Prepared base db start floor bootstrapped) :
    start = db ∨ ∃ floor, b.Prepared base db start floor true := by
  cases h with
  | found h => exact .inl rfl
  | created h hread => exact .inr ⟨base.number, .created h hread⟩

theorem Prepared.base_le {base : File} {db start : Database D} {floor : Int64}
    {bootstrapped : Bool} (h : b.Prepared base db start floor bootstrapped) :
    base.number ≤ floor := by
  cases h with
  | found h => exact Migrator.base_le_floor _ base
  | created h hread => exact Int64.le_refl _

section
variable {d : Directory} {base : File} {floor : Int64} {scripts : List (File × String)}

/-- A pending file is recorded in full, and its script does not end the transaction. -/
theorem Uncontrolled.ready (hcontrols : b.Uncontrolled d.listedUp) (hbase : d.IsBase base)
    (hpending : Pending d floor scripts) (hfloor : base.number ≤ floor) :
    ∀ p ∈ scripts, p.1.number ≠ 0 ∧ p.1.fileName ≠ "" ∧
      ∀ sql ∈ Sql.statements p.2, ¬ b.controls sql := by
  intro p hp
  have hzero := Int64.le_trans (Directory.zero_le_number hbase.1) hfloor
  obtain ⟨hnumber, hname⟩ := hpending.recordable hzero hp
  exact ⟨hnumber, hname, hcontrols p.1 (hpending.mem hp).1 p.2 (hpending.read p hp)⟩

/-- A pending file leaves the tracking table alone. -/
theorem Orderly.untouched (hfit : b.Orderly d base) (hpending : Pending d floor scripts)
    (hfloor : base.number ≤ floor) :
    ∀ p ∈ scripts, ∀ db, (b.play p.2 db).tracking = db.tracking := by
  intro p hp
  obtain ⟨hlisted, habove⟩ := hpending.mem hp
  exact hfit.apart p.1 hlisted (Int64.lt_of_le_of_lt hfloor habove) p.2 (hpending.read p hp)

end

/-! ### Scripts and records in a transaction -/

theorem within_runStatements (fileName : String) {statements : List String}
    (h : ∀ sql ∈ statements, ¬ b.controls sql) :
    b.Within (runStatements fileName statements) fun db _ db' => db' = b.playAll statements db := by
  induction statements with
  | nil =>
    exact (within_ok ()).mono fun db _ db' h => h.2
  | cons sql rest ih =>
    refine ⟨fun {s s' db r} hs hrun => ?_⟩
    rw [runStatements, run] at hrun
    cases hanswer : b.onStatements (.execute sql []) s with
    | mk x t =>
      rw [hanswer] at hrun
      obtain ⟨hsaved, hcurrent⟩ := b.script hs (h sql List.mem_cons_self) hanswer
      cases x with
      | error failure =>
        cases hrun
        exact ⟨hsaved, fun a ha => by cases ha⟩
      | ok done =>
        obtain ⟨hsaved', hrest⟩ :=
          (ih fun sql' h' => h sql' (List.mem_cons_of_mem _ h')).follow hsaved hrun
        refine ⟨hsaved', fun a ha => ?_⟩
        rw [hrest a ha, hcurrent done rfl]
        rfl

section
variable {ctx : Context} {b : Backend ctx.dialect D} {number : Int64} {fileName : String}
  (now : Instant)

/-- A record that is written is one row more, whatever the dialect. -/
theorem run_insert_newMigration (hnumber : number ≠ 0) (hname : fileName ≠ "") {s s' : b.State}
    {db : Database D} (hs : b.saved s = some db) {written : Written migration InsertResult}
    (hrun : run b.onStatements
      (ctx.insert (Record.empty migration) (newMigration number fileName now)) s = (written, s')) :
    b.saved s' = some db ∧ ∀ result, written.result = .ok result →
      b.current s' = (b.current s).record ⟨number, fileName, some now⟩ := by
  obtain ⟨x, hx, hok⟩ := run_insert_migration ctx hnumber hname hrun
  obtain ⟨hsaved, hcurrent⟩ := b.record hs hx
  exact ⟨hsaved, fun result hresult => hcurrent (hok result hresult)⟩

/-- A session that writes a record and ends as the insert did. -/
theorem within_insert_newMigration (hnumber : number ≠ 0) (hname : fileName ≠ "")
    {rest : Written migration InsertResult → Session (Except Failure Unit)}
    (herror : ∀ {written failure}, written.result = .error failure →
      ∃ failure', rest written = .done (.error failure'))
    (hok : ∀ {written result}, written.result = .ok result → rest written = .done (.ok ())) :
    b.Within (ctx.insert (Record.empty migration) (newMigration number fileName now) >>= rest)
      fun db _ db' => db' = db.record ⟨number, fileName, some now⟩ := by
  refine ⟨fun {s s' db r} hs hrun => ?_⟩
  rw [run_andThen] at hrun
  cases hwritten : run b.onStatements
      (ctx.insert (Record.empty migration) (newMigration number fileName now)) s with
  | mk written t =>
    rw [hwritten] at hrun
    obtain ⟨hsaved, hcurrent⟩ := run_insert_newMigration now hnumber hname hs hwritten
    cases hresult : written.result with
    | error failure =>
      obtain ⟨failure', hrest⟩ := herror hresult
      rw [hrest] at hrun
      cases hrun
      exact ⟨hsaved, fun a ha => by cases ha⟩
    | ok result =>
      rw [hok hresult] at hrun
      cases hrun
      exact ⟨hsaved, fun _ _ => hcurrent result hresult⟩

end

section
variable {m : Migrator} {b : Backend m.context.dialect D}

theorem within_applyFile (now : Instant) {file : File} {script : String} (hnumber : file.number ≠ 0)
    (hname : file.fileName ≠ "") (hscript : ∀ sql ∈ Sql.statements script, ¬ b.controls sql) :
    b.Within (m.applyFile now file script) fun db _ db' =>
      db' = (b.play script db).record (file.row now) := by
  rw [Migrator.applyFile]
  refine Within.mono (Within.bind (within_runStatements file.fileName hscript) (fun _ => rfl)
    fun _ => within_insert_newMigration now hnumber hname
      (fun h => ⟨.migration file.fileName _, by simp only [h]; rfl⟩)
      fun h => by simp only [h]; rfl) ?_
  rintro db _ db' ⟨_, mid, rfl, rfl⟩
  rfl

theorem within_applyFiles (clock : Clock) {scripts : List (File × String)}
    (h : ∀ p ∈ scripts, p.1.number ≠ 0 ∧ p.1.fileName ≠ "" ∧
      ∀ sql ∈ Sql.statements p.2, ¬ b.controls sql) :
    b.Within (m.applyFiles clock scripts) fun db names db' =>
      names = scripts.map (·.1.fileName) ∧ db' = b.applyAll clock scripts db := by
  induction scripts generalizing clock with
  | nil => exact within_ok []
  | cons p rest ih =>
    obtain ⟨hnumber, hname, hscript⟩ := h p List.mem_cons_self
    have hrest := ih clock.later fun p' h' => h p' (List.mem_cons_of_mem _ h')
    rw [Migrator.applyFiles]
    refine Within.mono (Within.bind (within_applyFile (clock 0) hnumber hname hscript)
      (fun _ => rfl) fun _ => Within.bind hrest (fun _ => rfl)
        fun names => within_ok (p.1.fileName :: names)) ?_
    rintro db names db' ⟨_, mid, rfl, names', db'', ⟨rfl, rfl⟩, rfl, rfl⟩
    exact ⟨rfl, rfl⟩

/-! ### Before the pending files -/

/-- The highest number is asked for outside of transactions; there is none exactly if there is no
tracking table. -/
theorem run_highest {s s' : b.State} (hs : b.saved s = none) {r : Except Failure (Option Int64)}
    (hrun : run b.onStatements m.highest s = (r, s')) :
    b.current s' = b.current s ∧ b.saved s' = none ∧
      ∀ highest, r = .ok highest → highest = (b.current s).tracking.map highestOf := by
  rcases hanswer : b.onStatements (.fetch Migrator.highestQuery []) s with ⟨failure | rows, t⟩
  · rw [Migrator.run_highest_error hanswer] at hrun
    obtain ⟨hcurrent, hsaved, hmissing⟩ := b.highest_error hs hanswer
    by_cases hfound : m.reportsNoTable failure = true
    · rw [if_pos hfound] at hrun
      cases hrun
      obtain ⟨error, herror, hclass⟩ := Migrator.reportsNoTable_eq_true_iff.1 hfound
      refine ⟨hcurrent, hsaved, fun highest h => ?_⟩
      rw [hmissing error herror hclass]
      exact (Except.ok.inj h).symm
    · rw [if_neg hfound] at hrun
      cases hrun
      exact ⟨hcurrent, hsaved, fun highest h => by cases h⟩
  · obtain ⟨hcurrent, hsaved, records, column, htracking, rfl⟩ := b.highest_ok hs hanswer
    rw [Migrator.run_highest_ok hanswer] at hrun
    cases hrun
    refine ⟨hcurrent, hsaved, fun highest h => ?_⟩
    rw [htracking]
    exact (Except.ok.inj h).symm

variable {files : List File} {base : File} (hcontrols : b.Uncontrolled m.directory.listedUp)

include hcontrols

/-- The base runs if there is no tracking table, and it runs whole or not at all. -/
theorem run_bootstrap (hbase : base ∈ m.directory.listedUp) {s s' : b.State} (hs : b.saved s = none)
    {r : Except Failure (Int64 × Bool)} (hrun : run b.answer (m.bootstrap base) s = (r, s')) :
    b.saved s' = none ∧
      ((∃ failure, r = .error failure) ∧ b.current s' = b.current s ∨
        ∃ highest bootstrapped, r = .ok (highest, bootstrapped) ∧
          b.Prepared base (b.current s) (b.current s') (Migrator.floor highest base)
            bootstrapped) := by
  rw [Migrator.bootstrap, run_andThen, run_ofSession] at hrun
  cases hhighest : run b.onStatements m.highest s with
  | mk x t =>
    rw [hhighest] at hrun
    obtain ⟨hcurrent, hsaved, hx⟩ := run_highest hs hhighest
    cases x with
    | error failure =>
      cases hrun
      exact ⟨hsaved, .inl ⟨⟨failure, rfl⟩, hcurrent⟩⟩
    | ok found =>
      have hfound := hx found rfl
      cases found with
      | some highest =>
        cases hrun
        refine ⟨hsaved, .inr ⟨highest, false, rfl, ?_⟩⟩
        obtain ⟨records, hrecords, rfl⟩ := Option.map_eq_some_iff.1 hfound.symm
        rw [hcurrent]
        exact .found hrecords
      | none =>
        have htracking : (b.current s).tracking = none := Option.map_eq_none_iff.1 hfound.symm
        cases hread : base.content.read with
        | error failure =>
          simp only [hread] at hrun
          cases hrun
          exact ⟨hsaved, .inl ⟨⟨failure, rfl⟩, hcurrent⟩⟩
        | ok script =>
          simp only [hread] at hrun
          rw [run_andThen] at hrun
          generalize hplayed : run b.answer (Work.transaction _) t = played at hrun
          obtain ⟨played, u⟩ := played
          obtain ⟨hu, hend⟩ := run_transaction
            (within_runStatements base.fileName (hcontrols base hbase script hread))
            hsaved hplayed
          rcases hend with ⟨⟨failure, rfl⟩, hback⟩ | ⟨x, rfl, hdone⟩
          · cases hrun
            exact ⟨hu, .inl ⟨⟨failure, rfl⟩, hback.trans hcurrent⟩⟩
          · cases hrun
            refine ⟨hu, .inr ⟨base.number, true, rfl, ?_⟩⟩
            rw [hdone, hcurrent, Migrator.floor_self]
            exact .created htracking hread

/-! ### The whole of an install -/

/-- An install that does not begin by dropping everything. -/
theorem run_installFrom {clock : Clock} (hfound : m.upFiles = .ok (files, base)) {s s' : b.State}
    (hs : b.saved s = none) {r : Except Failure InstallReport}
    (hrun : run b.answer (m.installFrom clock) s = (r, s')) :
    b.saved s' = none ∧
      ((∃ failure, r = .error failure) ∧ (b.current s' = b.current s ∨
          ∃ floor, b.Prepared base (b.current s) (b.current s') floor true) ∨
        ∃ start floor bootstrapped scripts,
          r = .ok ⟨bootstrapped, some base.fileName, scripts.map (·.1.fileName)⟩ ∧
          b.Prepared base (b.current s) start floor bootstrapped ∧
          Migrator.readAll (Migrator.pending files floor) = .ok scripts ∧
          b.current s' = b.applyAll clock scripts start) := by
  have hbase := Migrator.isBase_of_upFiles hfound
  rw [Migrator.installFrom, hfound] at hrun
  simp only [run_andThen] at hrun
  cases hboot : run b.answer (m.bootstrap base) s with
  | mk x t =>
    rw [hboot] at hrun
    obtain ⟨ht, hend⟩ := run_bootstrap hcontrols hbase.1 hs hboot
    rcases hend with ⟨⟨failure, rfl⟩, hcurrent⟩ | ⟨highest, bootstrapped, rfl, hprepared⟩
    · cases hrun
      exact ⟨ht, .inl ⟨⟨failure, rfl⟩, .inl hcurrent⟩⟩
    · -- a failure from here on leaves what the base has made, if it has run
      have hleft : b.current t = b.current s ∨
          ∃ floor, b.Prepared base (b.current s) (b.current t) floor true :=
        hprepared.eq_or_created
      cases hscripts : Migrator.readAll (Migrator.pending files (Migrator.floor highest base)) with
      | error failure =>
        simp only [hscripts] at hrun
        cases hrun
        exact ⟨ht, .inl ⟨⟨failure, rfl⟩, hleft⟩⟩
      | ok scripts =>
        have hpending := Migrator.pending_of_readAll hfound hscripts
        simp only [hscripts] at hrun
        cases scripts with
        | nil =>
          cases hrun
          exact ⟨ht, .inr ⟨_, _, _, [], rfl, hprepared, hscripts, rfl⟩⟩
        | cons p rest =>
          rw [run_andThen] at hrun
          cases happlied : run b.answer (Work.transaction (m.applyFiles clock (p :: rest))) t with
          | mk y u =>
            rw [happlied] at hrun
            obtain ⟨hu, hend⟩ := run_transaction
              (within_applyFiles clock (hcontrols.ready hbase hpending hprepared.base_le)) ht
              happlied
            rcases hend with ⟨⟨failure, rfl⟩, hback⟩ | ⟨names, rfl, rfl, hdone⟩
            · cases hrun
              rw [hback]
              exact ⟨hu, .inl ⟨⟨failure, rfl⟩, hleft⟩⟩
            · cases hrun
              exact ⟨hu, .inr ⟨_, _, _, p :: rest, rfl, hprepared, hscripts, hdone⟩⟩

end

/-! ### What an install leaves -/

/-- Scripts that do not touch the tracking table leave one record each. -/
theorem tracking_applyAll (clock : Clock) {scripts : List (File × String)}
    (h : ∀ p ∈ scripts, ∀ db, (b.play p.2 db).tracking = db.tracking) {db : Database D}
    {records : List Tracked} (hdb : db.tracking = some records) :
    (b.applyAll clock scripts db).tracking = some (records ++ rowsOf clock scripts) := by
  induction scripts generalizing clock db records with
  | nil =>
    rw [rowsOf_nil, List.append_nil]
    exact hdb
  | cons p rest ih =>
    have hrecorded : ((b.play p.2 db).record (p.1.row (clock 0))).tracking =
        some (records ++ [p.1.row (clock 0)]) := by
      rw [Database.record, h p List.mem_cons_self, hdb]
      rfl
    have hrest := ih clock.later (fun p' h' => h p' (List.mem_cons_of_mem _ h')) hrecorded
    rw [List.append_assoc] at hrest
    rw [rowsOf_cons]
    exact hrest

/-- There is a tracking table once the base has run, and its records are those of before. -/
theorem Prepared.tracking {d : Directory} {base : File} (hfit : b.Orderly d base)
    {db start : Database D} {floor : Int64} {bootstrapped : Bool}
    (h : b.Prepared base db start floor bootstrapped) :
    start.tracking = some (db.tracking.getD []) := by
  cases h with
  | found h => rw [h]; rfl
  | created h hread => rw [hfit.creates _ hread db h, h]; rfl

/-- The base that has run is all that has changed. -/
theorem Prepared.of_created {d : Directory} {base : File} (hfit : b.Orderly d base)
    {db start : Database D} {floor : Int64} (h : b.Prepared base db start floor true) :
    ∃ script, db.tracking = none ∧ base.content.read = .ok script ∧ start = b.play script db ∧
      start.tracking = some [] := by
  cases h with
  | created h hread => exact ⟨_, h, hread, rfl, hfit.creates _ hread db h⟩

/-- **An install is all or nothing.**  If it ends well, the base has run exactly if there was no
tracking table, and then the up files above the floor have run, each once and in order, each
recorded right after it has run, with its own reading of the clock.  If it fails, nothing has
changed, or there was no tracking table and the base has run and nothing else. -/
theorem install_all_or_nothing {m : Migrator} (hreset : m.reset = false)
    {b : Backend m.context.dialect D} {files : List File} {base : File}
    (hfound : m.upFiles = .ok (files, base)) (hfit : b.Orderly m.directory base) {s s' : b.State}
    (hs : b.saved s = none) {clock : Clock} {r : Except Failure InstallReport}
    (hrun : run b.answer (m.install clock) s = (r, s')) :
    b.saved s' = none ∧
      (∀ report, r = .ok report → ∃ start floor scripts,
        b.Prepared base (b.current s) start floor report.bootstrapped ∧
        Pending m.directory floor scripts ∧
        b.current s' = b.applyAll clock scripts start ∧
        start.tracking = some ((b.current s).tracking.getD []) ∧
        (b.current s').tracking = some
          ((b.current s).tracking.getD [] ++ rowsOf clock scripts) ∧
        report.base = some base.fileName ∧
        report.applied = scripts.map (·.1.fileName)) ∧
      ∀ failure, r = .error failure → b.current s' = b.current s ∨
        ∃ script, (b.current s).tracking = none ∧ base.content.read = .ok script ∧
          b.current s' = b.play script (b.current s) ∧ (b.current s').tracking = some [] := by
  rw [Migrator.install_of_not_reset hreset] at hrun
  obtain ⟨hsaved, ⟨⟨failure, rfl⟩, hleft⟩ |
    ⟨start, floor, bootstrapped, scripts, rfl, hprepared, hscripts, hdone⟩⟩ :=
    run_installFrom hfit.isUncontrolled hfound hs hrun
  · refine ⟨hsaved, (fun report h => by cases h), fun _ _ => ?_⟩
    rcases hleft with hleft | ⟨floor, hprepared⟩
    · exact .inl hleft
    · exact .inr (hprepared.of_created hfit)
  · refine ⟨hsaved, fun report h => ?_, fun failure h => by cases h⟩
    cases h
    have hpending := Migrator.pending_of_readAll hfound hscripts
    have hstart := hprepared.tracking hfit
    refine ⟨start, floor, scripts, hprepared, hpending, hdone, hstart, ?_, rfl, rfl⟩
    rw [hdone]
    exact tracking_applyAll clock (hfit.untouched hpending hprepared.base_le) hstart

end Backend

/-! ### A directory of three files -/

/-- The statements of a file; none if it cannot be read. -/
def File.statements (f : File) : List String :=
  (f.content.read.toOption.map Sql.statements).getD []

theorem File.statements_eq {f : File} {script : String} (h : f.content.read = .ok script) :
    f.statements = Sql.statements script := by
  rw [statements, h]
  rfl

namespace Journal

instance : DecidablePred journals.controls :=
  fun sql => inferInstanceAs (Decidable (sql ∈ ["BEGIN", "COMMIT", "ROLLBACK"]))

theorem playAll_eq {statements : List String} (h : createTracking ∉ statements)
    (db : Database (List String)) :
    journals.playAll statements db = { db with schema := db.schema ++ statements } := by
  induction statements generalizing db with
  | nil =>
    rw [List.append_nil]
    rfl
  | cons sql rest ih =>
    obtain ⟨hne, hrest⟩ := not_or.1 (mt List.mem_cons.2 h)
    have heffect : journals.effect sql db = { db with schema := db.schema ++ [sql] } :=
      if_neg (Ne.symm hne)
    rw [Backend.playAll, heffect, ih hrest, List.append_assoc]
    rfl

/-- Scripts are orderly if the base begins with the tracking table and no other script creates
it. -/
theorem orderly {d : Directory} {base : File} (rest : List String)
    (hcontrols : ∀ f ∈ d.listedUp, ∀ sql ∈ f.statements, ¬ journals.controls sql)
    (hbase : base.statements = createTracking :: rest) (hrest : createTracking ∉ rest)
    (hothers : ∀ f ∈ d.listedUp, base.number < f.number → createTracking ∉ f.statements) :
    journals.Orderly d base := by
  refine ⟨fun f hf script h => ?_, fun script h db hdb => ?_, fun f hf habove script h db => ?_⟩
  · rw [← File.statements_eq h]
    exact hcontrols f hf
  · rw [Backend.play, ← File.statements_eq h, hbase, Backend.playAll, playAll_eq hrest]
    rfl
  · rw [Backend.play, ← File.statements_eq h, playAll_eq (hothers f hf habove)]

def base : File :=
  ⟨⟨1, "base", .up⟩, "1.base.up.sql", .text (createTracking ++ "; CREATE TABLE jobs (id);")⟩

def early : File :=
  ⟨⟨2, "early", .up⟩, "2.early.up.sql",
    .text "CREATE TABLE files (id); CREATE INDEX places ON files (id);"⟩

def late : File :=
  ⟨⟨10, "late", .up⟩, "10.late.up.sql", .text "DROP TABLE jobs"⟩

/-- Three up files and a down file. -/
def directory : Directory :=
  ⟨"migrations", some ([base, early, late].map (fun f => (f.fileName, .file f.content)) ++
    [("10.late.down.sql", .file (.text "CREATE TABLE jobs (id)"))])⟩

def migrator : Migrator :=
  ⟨⟨.sqlite, .builtin⟩, directory, false⟩

/-- A database without tables, and which of the next statements fail. -/
def blank (mishaps : List Bool) : Journal :=
  ⟨⟨[], none⟩, none, mishaps⟩

theorem listedUp_directory : directory.listedUp = [base, early, late] := by
  decide +kernel

theorem upFiles_migrator : migrator.upFiles = .ok ([base, early, late], base) := by
  refine Migrator.upFiles_eq_ok_iff.2 ⟨?_, _, rfl⟩
  rw [migrator, listedUp_directory, List.mergeSort_of_pairwise (by decide +kernel)]

theorem statements_base : base.statements = [createTracking, "CREATE TABLE jobs (id)"] := by
  decide +kernel

theorem statements_early : early.statements =
    ["CREATE TABLE files (id)", "CREATE INDEX places ON files (id)"] := by
  decide +kernel

theorem statements_late : late.statements = ["DROP TABLE jobs"] := by
  decide +kernel

theorem others_directory :
    ∀ f ∈ directory.listedUp, base.number < f.number → createTracking ∉ f.statements := by
  rw [listedUp_directory]
  simp only [List.forall_mem_cons, statements_base, statements_early, statements_late]
  decide +kernel

theorem orderly_directory : journals.Orderly directory base := by
  refine orderly ["CREATE TABLE jobs (id)"] ?_ statements_base (by decide +kernel) others_directory
  rw [listedUp_directory]
  simp only [List.forall_mem_cons, statements_base, statements_early, statements_late]
  decide +kernel

/-- A clock that goes on by a second from one reading to the next. -/
def ticks : Clock :=
  fun n => .ofNanos (.ofNat n * 1000000000)

theorem directory_installed :
    let installed := run journals.answer (migrator.install ticks) (blank [])
    installed.1 = .ok ⟨true, some "1.base.up.sql", ["2.early.up.sql", "10.late.up.sql"]⟩ ∧
      installed.2.database.tracking = some [early.row (ticks 0), late.row (ticks 1)] ∧
      ∃ start floor scripts, journals.Prepared base ⟨[], none⟩ start floor true ∧
        Pending directory floor scripts ∧
        installed.2.database = journals.applyAll ticks scripts start ∧
        installed.2.database.tracking = some (rowsOf ticks scripts) ∧
        ["2.early.up.sql", "10.late.up.sql"] = scripts.map (·.1.fileName) := by
  intro installed
  obtain ⟨hok, hrows⟩ : installed.1 =
      .ok ⟨true, some "1.base.up.sql", ["2.early.up.sql", "10.late.up.sql"]⟩ ∧
      installed.2.database.tracking = some [early.row (ticks 0), late.row (ticks 1)] := by
    change (run journals.answer (migrator.install ticks) (blank [])).1 = _ ∧
      (run journals.answer (migrator.install ticks) (blank [])).2.database.tracking = _
    rw [Migrator.install_of_not_reset rfl, Migrator.installFrom, upFiles_migrator]
    decide +kernel
  have hrun : run journals.answer (migrator.install ticks) (blank []) =
      (installed.1, installed.2) := rfl
  obtain ⟨-, hinstalled, -⟩ :=
    Backend.install_all_or_nothing rfl upFiles_migrator orderly_directory rfl hrun
  obtain ⟨start, floor, scripts, hprepared, hpending, hdone, -, htracking, -, happlied⟩ :=
    hinstalled _ hok
  exact ⟨hok, hrows, start, floor, scripts, hprepared, hpending, hdone, htracking, happlied⟩

end Journal

end RecordLayer.Migration
