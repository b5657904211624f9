import RecordLayer.Proofs.Migration.Growth
import RecordLayer.Proofs.Migration.Install

/-!
# Migrations — What an install will do

The state of a database and an install over it are computed apart from each other: the state asks
for the highest number and looks for files above it, while an install may run the base in between
and take its number for the highest.  They agree: an install that ends well has run the base exactly
if the state was `unbootstrapped`, and has applied files behind a table that it found exactly if it
was `bootstrapped` (`state_predicts_install`).  Afterwards nothing is pending.

Transactions need not be atomic for this, since only an install that ends well is followed, and
nothing is asked about what a request does that fails (`Tracks`).
-/

namespace RecordLayer.Migration
open Dialogue Catalog

/-! ### What the tracking table says -/

/-- The number above which files are pending once the base has run. -/
def floorOf (base : File) : Option (List Tracked) → Int64
  | none         => base.number
  | some records => Migrator.floor (highestOf records) base

/-- How far a database has come by its tracking table. -/
def Directory.stateOf (d : Directory) (base : File) : Option (List Tracked) → State
  | none         => .unbootstrapped
  | some records =>
    if ∀ f ∈ d.listedUp, f.number ≤ floorOf base (some records) then .upToDate else .bootstrapped

/-- What an install has found by its report. -/
def InstallReport.found (report : InstallReport) : State :=
  if report.bootstrapped then .unbootstrapped
  else if report.applied = [] then .upToDate else .bootstrapped

theorem InstallReport.found_iff (report : InstallReport) (found : State) :
    report.found = found ↔
      (report.bootstrapped = true ↔ found = .unbootstrapped) ∧
      (report.bootstrapped = false ∧ report.applied ≠ [] ↔ found = .bootstrapped) ∧
      (report.bootstrapped = false ∧ report.applied = [] ↔ found = .upToDate) := by
  rw [InstallReport.found]
  cases report.bootstrapped with
  | true => cases found <;> simp
  | false => by_cases happlied : report.applied = [] <;> cases found <;> simp [happlied]

section
variable {d d' : Directory} {base base' : File} {records : List Tracked}

/-- Which of the files of one number is the base does not count, nor how the files are listed. -/
theorem stateOf_eq (hsame : d'.listedUp.Perm d.listedUp) (hbase : d.IsBase base)
    (hbase' : d'.IsBase base') (tracking : Option (List Tracked)) :
    d'.stateOf base' tracking = d.stateOf base tracking := by
  have hnumber := hbase.number_eq ((Directory.Grows.of_perm hsame).isBase hbase')
  cases tracking with
  | none => rfl
  | some records =>
    have hfloor : floorOf base' (some records) = floorOf base (some records) := by
      rw [floorOf, floorOf, Migrator.floor, Migrator.floor, hnumber]
    rw [Directory.stateOf, Directory.stateOf, hfloor]
    simp only [hsame.mem_iff]

theorem base_le_floorOf (base : File) (tracking : Option (List Tracked)) :
    base.number ≤ floorOf base tracking := by
  cases tracking with
  | none => exact Int64.le_refl _
  | some records => exact Migrator.base_le_floor _ base

theorem highestOf_le {n : Int64} (hzero : 0 ≤ n) (h : ∀ row ∈ records, row.number ≤ n) :
    highestOf records ≤ n := by
  by_cases hnil : records = []
  · rw [hnil]
    exact hzero
  · obtain ⟨row, hrow, hhighest⟩ := exists_highestOf hnil
    rw [hhighest]
    exact h row hrow

/-- Records that are added do not lower the floor. -/
theorem floorOf_le (hzero : 0 ≤ base.number) (tracking : Option (List Tracked))
    (more : List Tracked) :
    floorOf base tracking ≤ floorOf base (some (tracking.getD [] ++ more)) := by
  have hbase := base_le_floorOf base (some (tracking.getD [] ++ more))
  have hhighest := Migrator.highest_le_floor (highestOf (tracking.getD [] ++ more)) base
  cases tracking with
  | none => exact hbase
  | some records =>
    rw [floorOf, Migrator.floor]
    split
    · exact hbase
    · exact highestOf_le (Int64.le_trans hzero hbase) fun row hrow =>
        Int64.le_trans (le_highestOf (List.mem_append_left more hrow)) hhighest

/-- Nothing is pending once all that was is recorded. -/
theorem stateOf_recorded (hbase : d.IsBase base) {tracking : Option (List Tracked)}
    {scripts : List (File × String)} (hpending : Pending d (floorOf base tracking) scripts)
    (clock : Clock) :
    d.stateOf base (some (tracking.getD [] ++ rowsOf clock scripts)) = .upToDate := by
  refine if_pos fun f hf => ?_
  by_cases habove : floorOf base tracking < f.number
  · obtain ⟨p, hp, rfl⟩ := List.mem_map.1
      (hpending.perm.mem_iff.2 (List.mem_filter.2 ⟨hf, decide_eq_true habove⟩))
    have hnumbers : (rowsOf clock scripts).map (·.number) = scripts.map (·.1.number) :=
      map_rowsOf fun file now => rfl
    obtain ⟨row, hrow, hnumber⟩ := List.mem_map.1 (hnumbers ▸ List.mem_map_of_mem hp)
    have hhighest := le_highestOf (List.mem_append_right (tracking.getD []) hrow)
    rw [hnumber] at hhighest
    exact Int64.le_trans hhighest (Migrator.highest_le_floor _ base)
  · exact Int64.le_trans (Int64.not_lt.1 habove)
      (floorOf_le (Directory.zero_le_number hbase.1) tracking _)

end

/-- Nothing is pending if all files are at the floor or below. -/
theorem Migrator.pending_eq_nil_iff {m : Migrator} {files : List File} {base : File}
    (h : m.upFiles = .ok (files, base)) {floor : Int64} :
    pending files floor = [] ↔ ∀ f ∈ m.directory.listedUp, f.number ≤ floor := by
  rw [pending, List.filter_eq_nil_iff]
  simp only [(perm_of_upFiles h).mem_iff, decide_eq_true_eq, Int64.not_lt]

theorem Migrator.exists_upFiles {m : Migrator} {f : File} (h : f ∈ m.directory.listedUp) :
    ∃ files base, m.upFiles = .ok (files, base) := by
  cases hsorted : m.directory.listedUp.mergeSort File.le with
  | nil =>
    have hmem := (List.mergeSort_perm m.directory.listedUp File.le).mem_iff.2 h
    rw [hsorted] at hmem
    cases hmem
  | cons base rest => exact ⟨_, base, upFiles_eq_ok_iff.2 ⟨rfl, rest, hsorted⟩⟩

/-- An install that ends well has installed from what it has left of the database. -/
theorem Migrator.run_install_ok {σ : Type} {answer : Answerer Request Request.Answer σ}
    {m : Migrator} {clock : Clock} {report : InstallReport} {s u : σ}
    (hrun : run answer (m.install clock) s = (.ok report, u)) :
    ∃ t, run answer (m.installFrom clock) t = (.ok report, u) ∧ (m.reset = false → t = s) := by
  cases hreset : m.reset with
  | false =>
    rw [install_of_not_reset hreset] at hrun
    exact ⟨s, hrun, fun _ => rfl⟩
  | true =>
    rw [install, hreset, if_pos rfl, run_andThen] at hrun
    rcases hcleared : run answer m.resetAll s with ⟨failure | x, t⟩
    · rw [hcleared] at hrun
      cases hrun
    · rw [hcleared] at hrun
      exact ⟨t, hrun, fun h => by cases h⟩

/-- A report says what was found: the scripts are all that was pending. -/
theorem Pending.found_eq {d : Directory} {base : File} {tracking : Option (List Tracked)}
    {scripts : List (File × String)} (h : Pending d (floorOf base tracking) scripts)
    {report : InstallReport} (hbootstrapped : report.bootstrapped = tracking.isNone)
    (happlied : report.applied = scripts.map (·.1.fileName)) :
    report.found = d.stateOf base tracking := by
  rw [InstallReport.found, hbootstrapped, happlied]
  cases tracking with
  | none => rfl
  | some records =>
    have hfiles : scripts = [] ↔
        d.listedUp.filter (fun f => floorOf base (some records) < f.number) = [] := by
      rw [← List.length_eq_zero_iff, ← List.length_eq_zero_iff, ← h.perm.length_eq,
        List.length_map]
    have hnone : scripts.map (·.1.fileName) = [] ↔
        ∀ f ∈ d.listedUp, f.number ≤ floorOf base (some records) := by
      rw [List.map_eq_nil_iff, hfiles, List.filter_eq_nil_iff]
      simp only [decide_eq_true_eq, Int64.not_lt]
    rw [Directory.stateOf]
    simp only [hnone]
    rfl

/-! ### Backends with a tracking table -/

/-- What is asked of a backend: that it answers for its tracking table, to requests that succeed. -/
structure Tracks {σ : Type} (dialect : Dialect) (answer : Answerer Request Request.Answer σ)
    (tracking : σ → Option (List Tracked)) : Prop where
  opening_ok : ∀ {s s'}, answer .opening s = (.ok (), s') → tracking s' = tracking s
  commit_ok : ∀ {s s'}, answer .commit s = (.ok (), s') → tracking s' = tracking s
  /-- A record that is written is the last row. -/
  record_ok : ∀ {s s' number fileName now x},
    answer (.statement (recordStatement dialect number fileName now)) s = (x, s') →
    Statement.succeeded _ x = true →
    tracking s' = (tracking s).map (· ++ [⟨number, fileName, some now⟩])
  /-- The highest number is answered only if there is a tracking table. -/
  highest_ok : ∀ {s s' rows},
    answer (.statement (.fetch Migrator.highestQuery [])) s = (.ok rows, s') →
    tracking s' = tracking s ∧ ∃ records column,
      tracking s = some records ∧ rows = [[(column, .int (highestOf records))]]
  /-- A table is reported missing only if it is. -/
  highest_error : ∀ {s s' error},
    answer (.statement (.fetch Migrator.highestQuery [])) s = (.error (.database error), s') →
    dialect.classify error = .relationNotFound → tracking s' = tracking s ∧ tracking s = none

/-- What is asked of up files: where there is no tracking table, a base that runs to its end has
created an empty one, and no file above it that runs to its end has touched the table. -/
structure Respects {σ : Type} (answer : Answerer Request Request.Answer σ)
    (tracking : σ → Option (List Tracked)) (d : Directory) (base : File) : Prop where
  creates : ∀ {script s s'}, base.content.read = .ok script → tracking s = none →
    run (Work.onStatements answer) (runScript base.fileName script) s = (.ok (), s') →
    tracking s' = some []
  apart : ∀ {f script s s'}, f ∈ d.listedUp → base.number < f.number →
    f.content.read = .ok script →
    run (Work.onStatements answer) (runScript f.fileName script) s = (.ok (), s') →
    tracking s' = tracking s

namespace Tracks
variable {σ : Type} {m : Migrator} {answer : Answerer Request Request.Answer σ}
  {tracking : σ → Option (List Tracked)} (h : Tracks m.context.dialect answer tracking)
  {files : List File} {base : File} {clock : Clock} {s s' : σ}

include h

/-- The highest number is that of the tracking table, unless the query for it fails. -/
theorem run_highest {r : Except Failure (Option Int64)}
    (hrun : run (Work.onStatements answer) m.highest s = (r, s')) :
    (∃ failure, r = .error failure ∧
      (answer (.statement (.fetch Migrator.highestQuery [])) s).1 = .error failure) ∨
    tracking s' = tracking s ∧ r = .ok ((tracking s).map highestOf) := by
  rcases hanswer : Work.onStatements answer (.fetch Migrator.highestQuery []) s with
    ⟨failure | rows, t⟩
  · rw [Migrator.run_highest_error hanswer] at hrun
    by_cases hmissing : m.reportsNoTable failure = true
    · obtain ⟨error, rfl, hclass⟩ := Migrator.reportsNoTable_eq_true_iff.1 hmissing
      obtain ⟨hsame, hnone⟩ := h.highest_error hanswer hclass
      rw [if_pos hmissing] at hrun
      cases hrun
      exact .inr ⟨hsame, by rw [hnone]; rfl⟩
    · rw [if_neg hmissing] at hrun
      cases hrun
      exact .inl ⟨failure, rfl, congrArg Prod.fst hanswer⟩
  · obtain ⟨hsame, records, column, hrecords, rfl⟩ := h.highest_ok hanswer
    rw [Migrator.run_highest_ok hanswer] at hrun
    cases hrun
    exact .inr ⟨hsame, by rw [hrecords]; rfl⟩

/-- The state is what the tracking table says, unless the query for the highest number fails. -/
theorem run_state (hfound : m.upFiles = .ok (files, base)) {r : Except Failure State}
    (hrun : run answer m.state s = (r, s')) :
    (∃ failure, r = .error failure ∧
      (answer (.statement (.fetch Migrator.highestQuery [])) s).1 = .error failure) ∨
    tracking s' = tracking s ∧ r = .ok (m.directory.stateOf base (tracking s)) := by
  rw [Migrator.state, hfound] at hrun
  simp only [run_andThen, Work.run_ofSession] at hrun
  rcases hhighest : run (Work.onStatements answer) m.highest s with ⟨highest, t⟩
  rw [hhighest] at hrun
  rcases h.run_highest hhighest with ⟨failure, rfl, hfailed⟩ | ⟨hsame, rfl⟩
  · cases hrun
    exact .inl ⟨failure, rfl, hfailed⟩
  · refine .inr ?_
    cases htracking : tracking s with
    | none =>
      rw [htracking] at hrun
      cases hrun
      exact ⟨hsame.trans htracking, rfl⟩
    | some records =>
      have hnone : Migrator.pending files (floorOf base (some records)) = [] ↔ _ :=
        Migrator.pending_eq_nil_iff hfound
      rw [htracking] at hrun
      rw [Directory.stateOf]
      change run answer (if (Migrator.pending files (floorOf base (some records))).isEmpty then
        return Except.ok State.upToDate else return Except.ok State.bootstrapped) t = _ at hrun
      by_cases hempty : Migrator.pending files (floorOf base (some records)) = []
      · rw [if_pos (List.isEmpty_iff.2 hempty)] at hrun
        rw [if_pos (hnone.1 hempty)]
        cases hrun
        exact ⟨hsame.trans htracking, rfl⟩
      · rw [if_neg (mt List.isEmpty_iff.1 hempty)] at hrun
        rw [if_neg (mt hnone.2 hempty)]
        cases hrun
        exact ⟨hsame.trans htracking, rfl⟩

/-- The base has run if there was no tracking table. -/
theorem run_bootstrap (hfit : Respects answer tracking m.directory base) {highest : Int64}
    {bootstrapped : Bool}
    (hrun : run answer (m.bootstrap base) s = (.ok (highest, bootstrapped), s')) :
    bootstrapped = (tracking s).isNone ∧ tracking s' = some ((tracking s).getD []) ∧
      Migrator.floor highest base = floorOf base (tracking s) := by
  rw [Migrator.bootstrap, run_andThen, Work.run_ofSession] at hrun
  rcases hhighest : run (Work.onStatements answer) m.highest s with ⟨found, t⟩
  rw [hhighest] at hrun
  rcases h.run_highest hhighest with ⟨failure, rfl, -⟩ | ⟨hsame, rfl⟩
  · cases hrun
  · cases htracking : tracking s with
    | some records =>
      rw [htracking] at hrun
      cases hrun
      exact ⟨rfl, hsame.trans htracking, rfl⟩
    | none =>
      rw [htracking] at hrun
      cases hread : base.content.read with
      | error failure =>
        simp only [Option.map_none, hread] at hrun
        cases hrun
      | ok script =>
        simp only [Option.map_none, hread] at hrun
        rw [run_andThen] at hrun
        rcases hplayed : run answer (Work.transaction (runScript base.fileName script)) t with
          ⟨failure | x, u⟩
        · rw [hplayed] at hrun
          cases hrun
        · rw [hplayed] at hrun
          cases hrun
          obtain ⟨v, w, hopen, hscript, hcommit⟩ := Work.run_transaction_ok hplayed
          have hnone : tracking v = none :=
            (h.opening_ok hopen).trans (hsame.trans htracking)
          refine ⟨rfl, ?_, Migrator.floor_self base⟩
          rw [h.commit_ok hcommit, hfit.creates hread hnone hscript]
          rfl

/-- A file that is applied is recorded. -/
theorem run_applyFile {now : Instant} {file : File} {script : String} (hnumber : file.number ≠ 0)
    (hname : file.fileName ≠ "")
    (hscript : ∀ {s s'}, run (Work.onStatements answer) (runScript file.fileName script) s =
      (.ok (), s') → tracking s' = tracking s)
    (hrun : run (Work.onStatements answer) (m.applyFile now file script) s = (.ok (), s')) :
    tracking s' = (tracking s).map (· ++ [file.row now]) := by
  rw [Migrator.applyFile, run_andThen] at hrun
  rcases hplayed : run (Work.onStatements answer) (runScript file.fileName script) s with
    ⟨failure | x, t⟩
  · rw [hplayed] at hrun
    cases hrun
  · rw [hplayed] at hrun
    simp only [run_andThen] at hrun
    rcases hwritten : run (Work.onStatements answer) (m.context.insert (Record.empty migration)
      (newMigration file.number file.fileName now)) t with ⟨written, u⟩
    rw [hwritten] at hrun
    obtain ⟨x, hx, hok⟩ := run_insert_migration m.context hnumber hname hwritten
    cases hresult : written.result with
    | error failure =>
      simp only [hresult] at hrun
      cases hrun
    | ok result =>
      simp only [hresult] at hrun
      cases hrun
      rw [h.record_ok hx (hok result hresult), hscript hplayed]
      rfl

theorem run_applyFiles {scripts : List (File × String)} {names : List String}
    (hscripts : ∀ p ∈ scripts, p.1.number ≠ 0 ∧ p.1.fileName ≠ "" ∧ ∀ {s s'},
      run (Work.onStatements answer) (runScript p.1.fileName p.2) s = (.ok (), s') →
      tracking s' = tracking s)
    (hrun : run (Work.onStatements answer) (m.applyFiles clock scripts) s = (.ok names, s')) :
    names = scripts.map (·.1.fileName) ∧
      tracking s' = (tracking s).map (· ++ rowsOf clock scripts) := by
  induction scripts generalizing clock s names with
  | nil =>
    cases hrun
    refine ⟨rfl, ?_⟩
    simp only [rowsOf_nil, List.append_nil, Option.map_id']
  | cons p rest ih =>
    obtain ⟨⟨hnumber, hname, hscript⟩, hrest⟩ := List.forall_mem_cons.1 hscripts
    rw [Migrator.applyFiles, run_andThen] at hrun
    rcases hfirst : run (Work.onStatements answer) (m.applyFile (clock 0) p.1 p.2) s with
      ⟨failure | x, t⟩
    · rw [hfirst] at hrun
      cases hrun
    · rw [hfirst] at hrun
      simp only [run_andThen] at hrun
      rcases hmore : run (Work.onStatements answer) (m.applyFiles clock.later rest) t with
        ⟨failure | more, u⟩
      · rw [hmore] at hrun
        cases hrun
      · rw [hmore] at hrun
        cases hrun
        obtain ⟨rfl, htracking⟩ := ih hrest hmore
        refine ⟨rfl, ?_⟩
        rw [htracking, h.run_applyFile hnumber hname hscript hfirst, Option.map_map, rowsOf_cons]
        congr 1
        funext records
        simp

/-- An install that ends well has run the base if there was no tracking table, and has added a
record of each file above the floor. -/
theorem run_installFrom (hfound : m.upFiles = .ok (files, base))
    (hfit : Respects answer tracking m.directory base) {report : InstallReport}
    (hrun : run answer (m.installFrom clock) s = (.ok report, s')) :
    ∃ scripts, Pending m.directory (floorOf base (tracking s)) scripts ∧
      report.bootstrapped = (tracking s).isNone ∧
      report.applied = scripts.map (·.1.fileName) ∧
      tracking s' = some ((tracking s).getD [] ++ rowsOf clock scripts) := by
  have hbase := Migrator.isBase_of_upFiles hfound
  rw [Migrator.installFrom, hfound] at hrun
  simp only [run_andThen] at hrun
  rcases hboot : run answer (m.bootstrap base) s with ⟨failure | ⟨highest, bootstrapped⟩, t⟩
  · rw [hboot] at hrun
    cases hrun
  · obtain ⟨rfl, ht, hfloor⟩ := h.run_bootstrap hfit hboot
    simp only [hboot, hfloor] at hrun
    cases hscripts : Migrator.readAll (Migrator.pending files (floorOf base (tracking s))) with
    | error failure =>
      simp only [hscripts] at hrun
      cases hrun
    | ok scripts =>
      have hpending := Migrator.pending_of_readAll hfound hscripts
      simp only [hscripts] at hrun
      refine ⟨scripts, hpending, ?_⟩
      cases scripts with
      | nil =>
        cases hrun
        exact ⟨rfl, rfl, ht.trans (by rw [rowsOf_nil, List.append_nil])⟩
      | cons p rest =>
        rw [run_andThen] at hrun
        rcases happlied : run answer (Work.transaction (m.applyFiles clock (p :: rest))) t with
          ⟨failure | names, u⟩
        · rw [happlied] at hrun
          cases hrun
        · rw [happlied] at hrun
          cases hrun
          obtain ⟨v, w, hopen, hsession, hcommit⟩ := Work.run_transaction_ok happlied
          have hfloor := base_le_floorOf base (tracking s)
          have hready : ∀ q ∈ p :: rest, q.1.number ≠ 0 ∧ q.1.fileName ≠ "" ∧ ∀ {s s'},
              run (Work.onStatements answer) (runScript q.1.fileName q.2) s = (.ok (), s') →
              tracking s' = tracking s := by
            intro q hq
            have hzero := Int64.le_trans (Directory.zero_le_number hbase.1) hfloor
            obtain ⟨hnumber, hname⟩ := hpending.recordable hzero hq
            obtain ⟨hlisted, habove⟩ := hpending.mem hq
            exact ⟨hnumber, hname, hfit.apart hlisted (Int64.lt_of_le_of_lt hfloor habove)
              (hpending.read q hq)⟩
          obtain ⟨rfl, htracking⟩ := h.run_applyFiles hready hsession
          refine ⟨rfl, rfl, ?_⟩
          rw [h.commit_ok hcommit, htracking, h.opening_ok hopen, ht]
          rfl

end Tracks

/-! ### The prediction -/

/-- **The state predicts the install.**  The state of a database and an install that follows it and
ends well agree, however the files are listed for either: the base has run exactly if the state was
`unbootstrapped`, files have been applied behind a table that was there exactly if it was
`bootstrapped`, and nothing has been done exactly if it was `upToDate`.  After any install that ends
well the state is `upToDate`, unless the query for the highest number fails. -/
theorem state_predicts_install {σ : Type} {m : Migrator}
    {answer : Answerer Request Request.Answer σ} {tracking : σ → Option (List Tracked)}
    (h : Tracks m.context.dialect answer tracking) {files : List File} {base : File}
    (hfound : m.upFiles = .ok (files, base)) (hfit : Respects answer tracking m.directory base)
    {d : Directory} (hsame : d.listedUp.Perm m.directory.listedUp) {t u : σ} {clock : Clock}
    {report : InstallReport} (hinstall : run answer (m.install clock) t = (.ok report, u)) :
    (m.reset = false → ∀ s state, run answer { m with directory := d }.state s = (.ok state, t) →
      (report.bootstrapped = true ↔ state = .unbootstrapped) ∧
      (report.bootstrapped = false ∧ report.applied ≠ [] ↔ state = .bootstrapped) ∧
      (report.bootstrapped = false ∧ report.applied = [] ↔ state = .upToDate)) ∧
    ∀ r v, run answer { m with directory := d }.state u = (r, v) →
      r = .ok .upToDate ∨ ∃ failure, r = .error failure ∧
        (answer (.statement (.fetch Migrator.highestQuery [])) u).1 = .error failure := by
  have hbase := Migrator.isBase_of_upFiles hfound
  obtain ⟨files', base', hfound'⟩ : ∃ files' base',
      { m with directory := d }.upFiles = .ok (files', base') :=
    Migrator.exists_upFiles (hsame.mem_iff.2 hbase.1)
  have hstate := stateOf_eq hsame hbase (Migrator.isBase_of_upFiles hfound')
  have h' : Tracks { m with directory := d }.context.dialect answer tracking := h
  obtain ⟨t', hfrom, hstart⟩ := Migrator.run_install_ok hinstall
  obtain ⟨scripts, hpending, hbootstrapped, happlied, htracking⟩ :=
    h.run_installFrom hfound hfit hfrom
  refine ⟨fun hreset s state hrun => (report.found_iff state).1 ?_, fun r v hrun => ?_⟩
  · obtain ⟨failure, hfailed, -⟩ | ⟨ht, hok⟩ := h'.run_state hfound' hrun
    · cases hfailed
    · obtain rfl := hstart hreset
      rw [Except.ok.inj hok, hstate, ← ht]
      exact hpending.found_eq hbootstrapped happlied
  · obtain hfailed | ⟨-, rfl⟩ := h'.run_state hfound' hrun
    · exact .inr hfailed
    · rw [hstate, htracking, stateOf_recorded hbase hpending]
      exact .inl rfl

/-! ### Journals -/

namespace Journal

theorem tracks : Tracks .sqlite answer fun j => j.database.tracking where
  opening_ok := by
    intro j j' h
    cases h
    rfl
  commit_ok := by
    intro j j' h
    cases h
    rfl
  record_ok := by
    intro j j' number fileName now x h hok
    change answerStatement (.fetch _ (recordValues number fileName now)) j = (x, j') at h
    cases htracking : j.database.tracking with
    | none =>
      simp only [answerStatement, htracking] at h
      cases h
      cases hok
    | some records =>
      simp only [answerStatement, htracking, recordValues, row?] at h
      cases h
      rw [Database.record, htracking]
  highest_ok := by
    intro j j' rows h
    cases htracking : j.database.tracking with
    | none =>
      simp only [answer, answerStatement, htracking] at h
      cases h
    | some records =>
      simp only [answer, answerStatement, htracking, row?] at h
      cases h
      exact ⟨htracking, records, "highest", rfl, rfl⟩
  highest_error := by
    intro j j' error h _
    cases htracking : j.database.tracking with
    | none =>
      simp only [answer, answerStatement, htracking] at h
      cases h
      exact ⟨htracking, rfl⟩
    | some records =>
      simp only [answer, answerStatement, htracking, row?] at h
      cases h

/-- A script that runs to its end has had all its statements written down. -/
theorem database_of_runStatements {fileName : String} {statements : List String} {j j' : Journal}
    (hrun : run (Work.onStatements answer) (runStatements fileName statements) j = (.ok (), j')) :
    j'.database = journals.playAll statements j.database := by
  induction statements generalizing j with
  | nil =>
    cases hrun
    rfl
  | cons sql rest ih =>
    cases hmishap : j.mishaps.head?.getD false with
    | true =>
      simp only [runStatements, run, Work.onStatements, answer, answerStatement, hmishap] at hrun
      cases hrun
    | false =>
      simp only [runStatements, run, Work.onStatements, answer, answerStatement, hmishap] at hrun
      exact ih hrun

theorem respects {d : Directory} {base : File} (hfit : journals.Orderly d base) :
    Respects answer (fun j => j.database.tracking) d base where
  creates := by
    intro script j j' hread hnone hrun
    simp only [database_of_runStatements hrun]
    exact hfit.creates script hread _ hnone
  apart := by
    intro f script j j' hlisted habove hread hrun
    simp only [database_of_runStatements hrun]
    exact hfit.apart f hlisted habove script hread _

theorem install_predicted :
    let seen := run answer migrator.state (blank [])
    let installed := run answer (migrator.install default) seen.2
    let after := run answer migrator.state installed.2
    seen.1 = .ok .unbootstrapped ∧
      (∃ report, installed.1 = .ok report ∧ report.bootstrapped = true) ∧
      after.1 = .ok .upToDate := by
  intro seen installed after
  have hseen : seen.1 = .ok .unbootstrapped := by
    change (run answer migrator.state (blank [])).1 = _
    rw [Migrator.state, upFiles_migrator]
    decide +kernel
  obtain ⟨hinstalled, hanswered⟩ : installed.1 =
      .ok ⟨true, some "1.base.up.sql", ["2.early.up.sql", "10.late.up.sql"]⟩ ∧
      (answer (.statement (.fetch Migrator.highestQuery [])) installed.2).1.toBool = true := by
    change (run answer (migrator.install default) (run answer migrator.state (blank [])).2).1 = _ ∧
      (answer (.statement (.fetch Migrator.highestQuery [])) (run answer
        (migrator.install default) (run answer migrator.state (blank [])).2).2).1.toBool = _
    rw [Migrator.install_of_not_reset rfl, Migrator.installFrom, Migrator.state, upFiles_migrator]
    decide +kernel
  obtain ⟨hbefore, hafter⟩ := state_predicts_install tracks upFiles_migrator
    (respects orderly_directory) (List.Perm.refl _) (Prod.ext hinstalled rfl)
  have hbootstrapped := (hbefore rfl (blank []) _ (Prod.ext hseen rfl)).1.2 rfl
  refine ⟨hseen, ⟨_, hinstalled, hbootstrapped⟩, ?_⟩
  obtain hdone | ⟨failure, -, hfailed⟩ := hafter after.1 after.2 rfl
  · exact hdone
  · rw [hfailed] at hanswered
    cases hanswered

end Journal

end RecordLayer.Migration
