import RecordLayer.Proofs.Migration.Growth
import RecordLayer.Proofs.Migration.Install

/-!
# Migrations — Installing step by step

A database that is brought up to date in several installs over a growing directory, some of which
may fail, ends up like one that is brought up to date at once (`path_independent`).

The invariant is `Reached`: the database is as it was, or the base has run and what has been
applied and recorded behind it is nothing or all that is pending in one of the directories
(`Partly`).  An install that ends well continues with what the directory has above the floor, which
comes behind what has been applied.
-/

namespace RecordLayer.Migration
open Dialogue

/-! ### Databases that differ in time stamps -/

/-- A row without its time stamp. -/
def Tracked.entry (row : Tracked) : Int64 × String :=
  (row.number, row.fileName)

/-- What the record of a file says but for the time stamp. -/
def File.entry (f : File) : Int64 × String :=
  (f.number, f.fileName)

namespace Database
variable {D : Type} {db db' db'' : Database D}

/-- The databases differ in the time stamps of records at most. -/
structure Alike (db db' : Database D) : Prop where
  schema : db.schema = db'.schema
  entries : db.tracking.map (·.map Tracked.entry) = db'.tracking.map (·.map Tracked.entry)

theorem Alike.refl (db : Database D) : db.Alike db :=
  ⟨rfl, rfl⟩

theorem Alike.trans (h : db.Alike db') (h' : db'.Alike db'') : db.Alike db'' :=
  ⟨h.schema.trans h'.schema, h.entries.trans h'.entries⟩

theorem Alike.record (h : db.Alike db') {row row' : Tracked} (hrow : row.entry = row'.entry) :
    (db.record row).Alike (db'.record row') := by
  refine ⟨h.schema, ?_⟩
  have hentries : ∀ (db : Database D) (row : Tracked),
      (db.record row).tracking.map (·.map Tracked.entry) =
        (db.tracking.map (·.map Tracked.entry)).map (· ++ [row.entry]) := by
    intro db row
    rw [Database.record, Option.map_map, Option.map_map]
    congr 1
    funext records
    simp
  rw [hentries, hentries, h.entries, hrow]

end Database

namespace Backend
variable {dialect : Dialect} {D : Type} (b : Backend dialect D)

/-- What is asked of up files, and besides that what those above the base make of the database does
not depend on the time stamps of records, as it does not if they leave the tracking table alone. -/
structure Repeatable (d : Directory) (base : File) : Prop extends b.Orderly d base where
  blind : ∀ f ∈ d.listedUp, base.number < f.number → ∀ script, f.content.read = .ok script →
    ∀ db db', db.Alike db' → (b.play script db).Alike (b.play script db')

/-- The base has run on a database, and then the scripts, each recorded at some time. -/
def Made (base : File) (scripts : List (File × String)) (origin db : Database D) : Prop :=
  ∃ script clock, base.content.read = .ok script ∧
    db.Alike (b.applyAll clock scripts (b.play script origin))

/-- The base of the directory has run, and behind it nothing or all that is pending. -/
def Partly (d : Directory) (origin db : Database D) : Prop :=
  ∃ base scripts, d.IsBase base ∧ (scripts = [] ∨ Pending d base.number scripts) ∧
    b.Made base scripts origin db

/-- The base of the directory has run, and behind it all that is pending. -/
def Wholly (d : Directory) (origin db : Database D) : Prop :=
  ∃ base scripts, d.IsBase base ∧ Pending d base.number scripts ∧ b.Made base scripts origin db

/-- What installs over directories make of a database. -/
def Reached (chain : List Directory) (origin db : Database D) : Prop :=
  db = origin ∨ ∃ d ∈ chain, b.Partly d origin db

variable {b}

theorem Wholly.partly {d : Directory} {origin db : Database D} (h : b.Wholly d origin db) :
    b.Partly d origin db := by
  obtain ⟨base, scripts, hbase, hpending, hmade⟩ := h
  exact ⟨base, scripts, hbase, .inr hpending, hmade⟩

/-! ### Scripts behind scripts -/

theorem applyAll_append (clock : Clock) (scripts more : List (File × String)) (db : Database D) :
    b.applyAll clock (scripts ++ more) db =
      b.applyAll (fun n => clock (n + scripts.length)) more (b.applyAll clock scripts db) := by
  induction scripts generalizing clock db with
  | nil => rfl
  | cons p rest ih => exact ih _ _

theorem alike_applyAll {scripts : List (File × String)}
    (h : ∀ p ∈ scripts, ∀ db db', db.Alike db' → (b.play p.2 db).Alike (b.play p.2 db'))
    (clock clock' : Clock) {db db' : Database D} (hdb : db.Alike db') :
    (b.applyAll clock scripts db).Alike (b.applyAll clock' scripts db') := by
  induction scripts generalizing clock clock' db db' with
  | nil => exact hdb
  | cons p rest ih =>
    obtain ⟨hp, hrest⟩ := List.forall_mem_cons.1 h
    exact ih hrest _ _ ((hp db db' hdb).record rfl)

/-- Scripts that run on what was made before. -/
theorem Made.append {base : File} {scripts more : List (File × String)} {origin db : Database D}
    (h : b.Made base scripts origin db)
    (hmore : ∀ p ∈ more, ∀ db db', db.Alike db' → (b.play p.2 db).Alike (b.play p.2 db'))
    (clock : Clock) : b.Made base (scripts ++ more) origin (b.applyAll clock more db) := by
  obtain ⟨script, clock', hread, hdb⟩ := h
  refine ⟨script, clock', hread, ?_⟩
  rw [applyAll_append]
  exact alike_applyAll hmore _ _ hdb

/-- The floor that is computed from the records of scripts. -/
theorem isFloor_floor {base base' : File} (hzero : 0 ≤ base.number)
    (hnumber : base'.number = base.number) {scripts : List (File × String)} {records : List Tracked}
    (hrecords : records.map Tracked.entry = scripts.map (·.1.entry)) :
    IsFloor base scripts (Migrator.floor (highestOf records) base') := by
  have hnumbers : records.map (·.number) = scripts.map (·.1.number) := by
    have h := congrArg (List.map Prod.fst) hrecords
    rwa [List.map_map, List.map_map] at h
  refine ⟨?_, fun p hp => ?_, ?_⟩
  · rw [← hnumber]
    exact Migrator.base_le_floor _ base'
  · have hmem : p.1.number ∈ records.map (·.number) := by
      rw [hnumbers]
      exact List.mem_map_of_mem hp
    obtain ⟨row, hrow, heq⟩ := List.mem_map.1 hmem
    rw [← heq]
    exact Int64.le_trans (le_highestOf hrow) (Migrator.highest_le_floor _ base')
  · rw [Migrator.floor, hnumber]
    split
    · exact .inl rfl
    · rename_i hnot
      by_cases hempty : records = []
      · rw [hempty] at hnot ⊢
        exact .inl (Int64.le_antisymm hzero (Int64.not_lt.1 hnot))
      · obtain ⟨row, hrow, heq⟩ := exists_highestOf hempty
        have hmem : row.number ∈ scripts.map (·.1.number) := by
          rw [← hnumbers]
          exact List.mem_map_of_mem hrow
        obtain ⟨p, hp, hnumber⟩ := List.mem_map.1 hmem
        exact .inr ⟨p, hp, heq.trans hnumber.symm⟩

/-! ### One more install -/

section
variable {top d d' : Directory} {base base' : File} {scripts more : List (File × String)}
  {origin db start : Database D} {floor : Int64} {bootstrapped : Bool}

/-- What is asked of a directory is asked of it as it was before. -/
theorem Repeatable.of_grows (hgrows : d.Grows top)
    (hfit : ∀ base, top.IsBase base → b.Repeatable top base) (hbase : d.IsBase base) :
    b.Repeatable d base := by
  have hfit := hfit base (hgrows.isBase hbase)
  exact {
    uncontrolled := fun f hf => hfit.uncontrolled f (hgrows.mem hf)
    creates := hfit.creates
    apart := fun f hf => hfit.apart f (hgrows.mem hf)
    blind := fun f hf => hfit.blind f (hgrows.mem hf) }

/-- Pending files do not see the time stamps of records. -/
theorem Repeatable.unseeing (hfit : b.Repeatable d base) (hpending : Pending d floor scripts)
    (hfloor : base.number ≤ floor) :
    ∀ p ∈ scripts, ∀ db db', db.Alike db' → (b.play p.2 db).Alike (b.play p.2 db') := by
  intro p hp
  obtain ⟨hlisted, habove⟩ := hpending.mem hp
  exact hfit.blind p.1 hlisted (Int64.lt_of_le_of_lt hfloor habove) p.2 (hpending.read p hp)

/-- What was made is recorded. -/
theorem Made.records (hfit : b.Orderly d base) (hnone : origin.tracking = none)
    (hscripts : scripts = [] ∨ Pending d base.number scripts)
    (h : b.Made base scripts origin db) :
    ∃ records, db.tracking = some records ∧
      records.map Tracked.entry = scripts.map (·.1.entry) := by
  obtain ⟨script, clock, hread, hdb⟩ := h
  have hapart : ∀ p ∈ scripts, ∀ db, (b.play p.2 db).tracking = db.tracking := by
    rcases hscripts with rfl | hpending
    · intro p hp
      cases hp
    · exact hfit.untouched hpending (Int64.le_refl _)
  have htracking := tracking_applyAll clock hapart (hfit.creates script hread origin hnone)
  have hentries := hdb.entries
  have hrows : (rowsOf clock scripts).map Tracked.entry = scripts.map (·.1.entry) :=
    map_rowsOf fun file now => rfl
  rw [htracking, List.nil_append, Option.map_some, hrows] at hentries
  obtain ⟨records, hrecords, heq⟩ := Option.map_eq_some_iff.1 hentries
  exact ⟨records, hrecords, heq⟩

/-- An install on what was made finds its records. -/
theorem Made.prepared (hfit : b.Orderly d base) (hbase : d.IsBase base)
    (hnone : origin.tracking = none) (hscripts : scripts = [] ∨ Pending d base.number scripts)
    (h : b.Made base scripts origin db) (hnumber : base'.number = base.number)
    (hprepared : b.Prepared base' db start floor bootstrapped) :
    start = db ∧ bootstrapped = false ∧ IsFloor base scripts floor := by
  obtain ⟨records, hrecords, hentries⟩ := h.records hfit hnone hscripts
  cases hprepared with
  | found hfound =>
    rw [hfound] at hrecords
    cases hrecords
    exact ⟨rfl, rfl, isFloor_floor (Directory.zero_le_number hbase.1) hnumber hentries⟩
  | created htracking =>
    rw [htracking] at hrecords
    cases hrecords

/-- The base that runs on a database without a tracking table, and the files behind it. -/
theorem Prepared.made (hprepared : b.Prepared base origin start floor bootstrapped)
    (hnone : origin.tracking = none) (scripts : List (File × String)) (clock : Clock) :
    floor = base.number ∧ bootstrapped = true ∧
      b.Made base scripts origin (b.applyAll clock scripts start) := by
  cases hprepared with
  | found hfound =>
    rw [hnone] at hfound
    cases hfound
  | created h hread => exact ⟨rfl, rfl, _, clock, hread, Database.Alike.refl _⟩

/-- An install over a directory that has grown makes all of it. -/
theorem Partly.grow (hfit : ∀ base, d'.IsBase base → b.Repeatable d' base)
    (hgrows : d.Grows d') (hnone : origin.tracking = none) (h : b.Partly d origin db)
    (hbase' : d'.IsBase base') (hprepared : b.Prepared base' db start floor bootstrapped)
    (hmore : Pending d' floor more) (clock : Clock) :
    b.Wholly d' origin (b.applyAll clock more start) := by
  obtain ⟨base, scripts, hbase, hscripts, hmade⟩ := h
  have hbase₁ := hgrows.isBase hbase
  obtain ⟨rfl, rfl, hfloor⟩ := hmade.prepared (Repeatable.of_grows hgrows hfit hbase).toOrderly
    hbase hnone hscripts (hbase'.number_eq hbase₁) hprepared
  have hmade' := hmade.append ((hfit base hbase₁).unseeing hmore hfloor.base_le) clock
  refine ⟨base, scripts ++ more, hbase₁, ?_, hmade'⟩
  -- with nothing behind the base, the floor is its number
  rcases hscripts with rfl | hpending
  · rwa [Pending.floor_of_nil hfloor] at hmore
  · exact hpending.append hbase hfloor hgrows hmore

/-- An install over a directory that is behind changes nothing, or makes all of it. -/
theorem Partly.stay (hfit : ∀ base, d.IsBase base → b.Repeatable d base) (hgrows : d'.Grows d)
    (hnone : origin.tracking = none) (h : b.Partly d origin db) (hbase' : d'.IsBase base')
    (hprepared : b.Prepared base' db start floor bootstrapped) (hmore : Pending d' floor more)
    (clock : Clock) :
    b.applyAll clock more start = db ∨ b.Wholly d' origin (b.applyAll clock more start) := by
  obtain ⟨base, scripts, hbase, hscripts, hmade⟩ := h
  rcases hscripts with rfl | hpending
  -- where only the base has run, a directory that is behind is as good as one that has grown
  · have hpartly : b.Partly d' origin db :=
      ⟨base, [], hgrows.isBase_of_mem hbase hbase'.1, .inl rfl, hmade⟩
    exact .inr (hpartly.grow (fun _ => Repeatable.of_grows hgrows hfit) (Directory.Grows.refl d')
      hnone hbase' hprepared hmore clock)
  · obtain ⟨rfl, rfl, hfloor⟩ := hmade.prepared (hfit base hbase).toOrderly hbase hnone
      (.inr hpending) ((hgrows.isBase hbase').number_eq hbase) hprepared
    rw [hpending.eq_nil hbase hfloor hgrows hmore]
    exact .inl rfl

end

section
variable {chain : List Directory} {top d : Directory} {base : File} {origin db start : Database D}
  {floor : Int64} {bootstrapped : Bool} {more : List (File × String)}
  (hfit : ∀ base, top.IsBase base → b.Repeatable top base)
  (htop : ∀ d ∈ chain, d.Grows top) (hnone : origin.tracking = none)

include hfit htop hnone

/-- The base that has run when an install fails behind it. -/
theorem Reached.failed (h : b.Reached chain origin db) (hd : d ∈ chain) (hbase : d.IsBase base)
    (hprepared : b.Prepared base db start floor true) : b.Reached chain origin start := by
  rcases h with rfl | ⟨d₀, hd₀, base₀, scripts, hbase₀, hscripts, hmade⟩
  · obtain ⟨-, -, hmade⟩ := hprepared.made hnone [] default
    exact .inr ⟨d, hd, base, [], hbase, .inl rfl, hmade⟩
  -- what was made has a tracking table, so that the base does not run again
  · obtain ⟨records, hrecords, -⟩ := hmade.records
      (Repeatable.of_grows (htop d₀ hd₀) hfit hbase₀).toOrderly hnone hscripts
    cases hprepared with
    | created htracking =>
      rw [htracking] at hrecords
      cases hrecords

/-- An install that ends well over a directory to which all others grow. -/
theorem Reached.wholly (h : b.Reached chain origin db) (hall : ∀ d' ∈ chain, d'.Grows d)
    (hd : d ∈ chain) (hbase : d.IsBase base)
    (hprepared : b.Prepared base db start floor bootstrapped) (hmore : Pending d floor more)
    (clock : Clock) : b.Wholly d origin (b.applyAll clock more start) := by
  rcases h with rfl | ⟨d₀, hd₀, hpartly⟩
  · obtain ⟨rfl, rfl, hmade⟩ := hprepared.made hnone more clock
    exact ⟨base, more, hbase, hmore, hmade⟩
  · exact hpartly.grow (fun _ => Repeatable.of_grows (htop d hd) hfit) (hall d₀ hd₀) hnone hbase
      hprepared hmore clock

/-- An install that ends well over any of the directories. -/
theorem Reached.installed (hchain : chain.IsChain Directory.Grows) (h : b.Reached chain origin db)
    (hd : d ∈ chain) (hbase : d.IsBase base)
    (hprepared : b.Prepared base db start floor bootstrapped) (hmore : Pending d floor more)
    (clock : Clock) : b.Reached chain origin (b.applyAll clock more start) := by
  rcases h with rfl | ⟨d₀, hd₀, hpartly⟩
  · obtain ⟨rfl, rfl, hmade⟩ := hprepared.made hnone more clock
    exact .inr ⟨d, hd, base, more, hbase, .inr hmore, hmade⟩
  · rcases Directory.grows_or_grows hchain hd₀ hd with hgrows | hgrows
    · exact .inr ⟨d, hd, (hpartly.grow (fun _ => Repeatable.of_grows (htop d hd) hfit) hgrows hnone
        hbase hprepared hmore clock).partly⟩
    · rcases hpartly.stay (fun _ => Repeatable.of_grows (htop d₀ hd₀) hfit) hgrows hnone hbase
        hprepared hmore clock with heq | hwholly
      · rw [heq]
        exact .inr ⟨d₀, hd₀, hpartly⟩
      · exact .inr ⟨d, hd, hwholly.partly⟩

end

/-! ### Runs -/

section
variable {ctx : Context} (b : Backend ctx.dialect D)

variable (ctx) in
/-- Installs over directories, one after another, each of which may fail. -/
inductive Runs (chain : List Directory) : b.State → b.State → Prop where
  | start (s) : Runs chain s s
  | install {s t u d clock r} (h : Runs chain s t) (hd : d ∈ chain)
      (hrun : run b.answer ((Migrator.mk ctx d false).install clock) t = (r, u)) : Runs chain s u

variable (ctx) in
/-- Whatever install over the directory ends well on `origin` makes the database of it, but for the
time stamps of records. -/
def MadeAtOnce (d : Directory) (origin db : Database D) : Prop :=
  ∀ {s s' clock report}, b.saved s = none → b.current s = origin →
    run b.answer ((Migrator.mk ctx d false).install clock) s = (.ok report, s') →
    db.Alike (b.current s')

variable {b} {chain : List Directory} {top d : Directory} {origin : Database D}
  (hfit : ∀ base, top.IsBase base → b.Repeatable top base)
  (hnone : origin.tracking = none)

include hfit hnone

/-- **One more install** leaves what installs make, whether it ends well or not. -/
theorem run_install (htop : ∀ d ∈ chain, d.Grows top) (hchain : chain.IsChain Directory.Grows)
    {t u : b.State} (ht : b.saved t = none) (h : b.Reached chain origin (b.current t))
    (hd : d ∈ chain) {clock : Clock} {r : Except Failure InstallReport}
    (hrun : run b.answer ((Migrator.mk ctx d false).install clock) t = (r, u)) :
    b.saved u = none ∧ b.Reached chain origin (b.current u) ∧
      ∀ report, r = .ok report → (∀ d' ∈ chain, d'.Grows d) →
        b.Wholly d origin (b.current u) := by
  rw [Migrator.install_of_not_reset rfl] at hrun
  cases hfound : (Migrator.mk ctx d false).upFiles with
  | error failure =>
    rw [Migrator.installFrom, hfound] at hrun
    cases hrun
    exact ⟨ht, h, fun report h => by cases h⟩
  | ok found =>
    obtain ⟨files, base⟩ := found
    have hbase : d.IsBase base := Migrator.isBase_of_upFiles hfound
    obtain ⟨hu, ⟨⟨failure, rfl⟩, hleft⟩ |
      ⟨start, floor, bootstrapped, scripts, rfl, hprepared, hscripts, hdone⟩⟩ :=
      run_installFrom (Repeatable.of_grows (htop d hd) hfit hbase).toOrderly.isUncontrolled
        hfound ht hrun
    · refine ⟨hu, ?_, fun report h => by cases h⟩
      rcases hleft with hleft | ⟨floor, hprepared⟩
      · rwa [hleft]
      · exact h.failed hfit htop hnone hd hbase hprepared
    · have hmore := Migrator.pending_of_readAll hfound hscripts
      rw [hdone]
      exact ⟨hu, h.installed hfit htop hnone hchain hd hbase hprepared hmore clock,
        fun _ _ hall => h.wholly hfit htop hnone hall hd hbase hprepared hmore clock⟩

/-- Runs leave what installs make. -/
theorem Runs.reached (htop : ∀ d ∈ chain, d.Grows top) (hchain : chain.IsChain Directory.Grows)
    {s t : b.State} (hs : b.saved s = none) (horigin : b.current s = origin)
    (h : b.Runs ctx chain s t) : b.saved t = none ∧ b.Reached chain origin (b.current t) := by
  induction h with
  | start => exact ⟨hs, .inl horigin⟩
  | install h hd hrun ih =>
    obtain ⟨ht, hreached⟩ := ih
    obtain ⟨hu, hreached', -⟩ := run_install hfit hnone htop hchain ht hreached hd hrun
    exact ⟨hu, hreached'⟩

/-- What is made at once: an install over a directory that lists its files as they were applied. -/
theorem Made.madeAtOnce {base : File} {scripts : List (File × String)} {db : Database D}
    (hbase : top.IsBase base) (hscripts : Pending top base.number scripts)
    (h : b.Made base scripts origin db) (hperm : d.listedUp.Perm top.listedUp)
    (hlists : d.Lists base (scripts.map (·.1))) : b.MadeAtOnce ctx d origin db := by
  intro s s' clock report hs horigin hrun
  obtain ⟨script, clock', hread, hdb⟩ := h
  obtain ⟨files, hfiles, hpending⟩ := hlists
  have hfound := hfiles ctx
  have hbase' : d.IsBase base := Migrator.isBase_of_upFiles hfound
  have hfit' := Repeatable.of_grows (Directory.Grows.of_perm hperm) hfit hbase'
  rw [Migrator.install_of_not_reset rfl] at hrun
  obtain ⟨-, ⟨⟨failure, h⟩, -⟩ |
    ⟨start, floor, bootstrapped, scripts', -, hprepared, hscripts', hdone⟩⟩ :=
    run_installFrom hfit'.toOrderly.isUncontrolled hfound hs hrun
  · cases h
  · rw [horigin] at hprepared
    cases hprepared with
    | found htracking =>
      rw [hnone] at htracking
      cases htracking
    | created htracking hread' =>
      rw [hread] at hread'
      cases hread'
      -- the files are the same in the same order, and so are the scripts read from them
      have hmore := Migrator.pending_of_readAll hfound hscripts'
      have hsame : scripts = scripts' := hscripts.eq_of_files_eq hmore
        (hpending.symm.trans (Migrator.of_readAll hscripts').1.symm)
      rw [hdone, ← hsame]
      have hunseeing := (hfit base hbase).unseeing hscripts (Int64.le_refl _)
      exact hdb.trans (alike_applyAll hunseeing clock' clock (Database.Alike.refl _))

/-- Where no two files tie, every order of listing makes the same. -/
theorem Wholly.madeAtOnce {db : Database D} (h : b.Wholly top origin db)
    (hdistinct : top.IsDistinct) (hperm : d.listedUp.Perm top.listedUp) :
    b.MadeAtOnce ctx d origin db := by
  obtain ⟨base, scripts, hbase, hscripts, hmade⟩ := h
  cases hfound : (Migrator.mk ctx d false).upFiles with
  | error failure =>
    intro s s' clock report hs horigin hrun
    rw [Migrator.install_of_not_reset rfl, Migrator.installFrom, hfound] at hrun
    cases hrun
  | ok found =>
    obtain ⟨files, base'⟩ := found
    exact hmade.madeAtOnce hfit hnone hbase hscripts hperm
      (hdistinct.lists hbase hscripts hperm hfound)

/-- Nothing is left to install where all has been made. -/
theorem Wholly.install_again {t u : b.State} (ht : b.saved t = none)
    (h : b.Wholly top origin (b.current t)) (hperm : d.listedUp.Perm top.listedUp)
    {clock : Clock} {r : Except Failure InstallReport}
    (hrun : run b.answer ((Migrator.mk ctx d false).install clock) t = (r, u)) :
    b.current u = b.current t ∧ ∀ report, r = .ok report →
      report.bootstrapped = false ∧ report.applied = [] := by
  obtain ⟨base, scripts, hbase, hscripts, hmade⟩ := h
  have hgrows := Directory.Grows.of_perm hperm
  rw [Migrator.install_of_not_reset rfl] at hrun
  cases hfound : (Migrator.mk ctx d false).upFiles with
  | error failure =>
    rw [Migrator.installFrom, hfound] at hrun
    cases hrun
    exact ⟨rfl, fun report h => by cases h⟩
  | ok found =>
    obtain ⟨files, base'⟩ := found
    have hbase' : d.IsBase base' := Migrator.isBase_of_upFiles hfound
    have hprepared : ∀ {start floor bootstrapped},
        b.Prepared base' (b.current t) start floor bootstrapped →
        start = b.current t ∧ bootstrapped = false ∧ IsFloor base scripts floor :=
      hmade.prepared (hfit base hbase).toOrderly hbase hnone (.inr hscripts)
        ((hgrows.isBase hbase').number_eq hbase)
    obtain ⟨hu, ⟨⟨failure, rfl⟩, hleft⟩ |
      ⟨start, floor, bootstrapped, more, rfl, hstart, hmore, hdone⟩⟩ :=
      run_installFrom (Repeatable.of_grows hgrows hfit hbase').toOrderly.isUncontrolled hfound
        ht hrun
    · refine ⟨?_, fun report h => by cases h⟩
      rcases hleft with hleft | ⟨floor, hstart⟩
      · exact hleft
      · exact (hprepared hstart).1
    · obtain ⟨rfl, rfl, hfloor⟩ := hprepared hstart
      obtain rfl := hscripts.eq_nil hbase hfloor hgrows (Migrator.pending_of_readAll hfound hmore)
      refine ⟨hdone, fun report h => ?_⟩
      cases h
      exact ⟨rfl, rfl⟩

end

/-- **Installing step by step is installing at once.**  Over directories that grow, let there be
any number of installs on a database without a tracking table, each of which may fail, and at last
one that ends well over the last directory.  Then the base has run, and behind it all files above
it, each recorded right after it has run; and the database is the one that an install at once makes
of the last directory's files, but for the time stamps of records: where they are listed in the
order in which they have run, as they can be, and in every order if no two of them tie.  From there
on, an install over the same files changes nothing and records nothing. -/
theorem path_independent {ctx : Context} {b : Backend ctx.dialect D} {earlier : List Directory}
    {last : Directory} (hchain : (earlier ++ [last]).IsChain Directory.Grows)
    (hfit : ∀ base, last.IsBase base → b.Repeatable last base) {s t u : b.State}
    (hs : b.saved s = none) (hfresh : (b.current s).tracking = none)
    (hruns : b.Runs ctx (earlier ++ [last]) s t) {clock : Clock} {report : InstallReport}
    (hlast : run b.answer ((Migrator.mk ctx last false).install clock) t = (.ok report, u)) :
    (∃ base scripts, Pending last base.number scripts ∧
      b.Made base scripts (b.current s) (b.current u) ∧
      (∃ d : Directory, d.listedUp.Perm last.listedUp ∧ d.Lists base (scripts.map (·.1))) ∧
      ∀ d : Directory, d.listedUp.Perm last.listedUp → d.Lists base (scripts.map (·.1)) →
        b.MadeAtOnce ctx d (b.current s) (b.current u)) ∧
    (last.IsDistinct → ∀ d, d.listedUp.Perm last.listedUp →
      b.MadeAtOnce ctx d (b.current s) (b.current u)) ∧
    ∀ d, d.listedUp.Perm last.listedUp → ∀ clock r v,
      run b.answer ((Migrator.mk ctx d false).install clock) u = (r, v) →
      b.current v = b.current u ∧ ∀ report, r = .ok report →
        report.bootstrapped = false ∧ report.applied = [] := by
  have hgrows : ∀ d ∈ earlier ++ [last], d.Grows last := fun d hd => Directory.grows_last hchain hd
  have hmem : last ∈ earlier ++ [last] := List.mem_append_right _ (List.mem_singleton_self last)
  obtain ⟨ht, hreached⟩ := hruns.reached hfit hfresh hgrows hchain hs rfl
  obtain ⟨hu, -, hdone⟩ := run_install hfit hfresh hgrows hchain ht hreached hmem hlast
  have hwholly := hdone report rfl hgrows
  refine ⟨?_, fun hdistinct d hperm => hwholly.madeAtOnce hfit hfresh hdistinct hperm,
    fun d hperm clock r v hrun => hwholly.install_again hfit hfresh hu hperm hrun⟩
  obtain ⟨base, scripts, hbase, hscripts, hmade⟩ := hwholly
  exact ⟨base, scripts, hscripts, hmade, Directory.exists_listing hbase hscripts,
    fun d hperm hlists => hmade.madeAtOnce hfit hfresh hbase hscripts hperm hlists⟩

end Backend

/-! ### A directory that has grown by a file -/

namespace Journal

/-- Scripts that do not create the tracking table do not see it either. -/
theorem repeatable {d : Directory} {base : File} (hfit : journals.Orderly d base)
    (hothers : ∀ f ∈ d.listedUp, base.number < f.number → createTracking ∉ f.statements) :
    journals.Repeatable d base where
  toOrderly := hfit
  blind := by
    intro f hf habove script h db db' halike
    have hnot := hothers f hf habove
    rw [File.statements_eq h] at hnot
    rw [Backend.play, Backend.play, playAll_eq hnot, playAll_eq hnot]
    exact ⟨congrArg (· ++ Sql.statements script) halike.schema, halike.entries⟩

/-- The directory before the last file came. -/
def earlier : Directory :=
  ⟨"migrations", some ([base, early].map fun f => (f.fileName, .file f.content))⟩

def earlierMigrator : Migrator :=
  ⟨⟨.sqlite, .builtin⟩, earlier, false⟩

theorem listedUp_earlier : earlier.listedUp = [base, early] := by
  decide +kernel

theorem upFiles_earlier : earlierMigrator.upFiles = .ok ([base, early], base) := by
  refine Migrator.upFiles_eq_ok_iff.2 ⟨?_, _, rfl⟩
  rw [earlierMigrator, listedUp_earlier, List.mergeSort_of_pairwise (by decide +kernel)]

theorem earlier_grows : earlier.Grows directory := by
  refine ⟨[late], ?_, ?_⟩
  · rw [listedUp_directory, listedUp_earlier]
    exact List.Perm.refl _
  · rw [listedUp_earlier]
    decide +kernel

theorem isDistinct_directory : directory.IsDistinct := by
  rw [Directory.IsDistinct, listedUp_directory]
  decide +kernel

theorem repeatable_directory {f : File} (hf : directory.IsBase f) :
    journals.Repeatable directory f := by
  have hbase : directory.IsBase base := Migrator.isBase_of_upFiles upFiles_migrator
  have htie := File.tie (hf.2 base hbase.1) (hbase.2 f hf.1)
  obtain rfl := isDistinct_directory f hf.1 base hbase.1 htie.1 htie.2
  exact repeatable orderly_directory others_directory

/-- The first install fails in the second file and leaves the base; the next one goes on from
there. -/
theorem directory_installed_in_steps :
    let first := run journals.answer (earlierMigrator.install default) (blank [false, false, true])
    let last := run journals.answer (migrator.install default) first.2
    first.1.toBool = false ∧
      last.1 = .ok ⟨false, some "1.base.up.sql", ["2.early.up.sql", "10.late.up.sql"]⟩ ∧
      journals.MadeAtOnce migrator.context directory ⟨[], none⟩ last.2.database := by
  intro first last
  have hfirst : @Eq (Except Failure InstallReport × Journal) first
      (.error (.migration "2.early.up.sql" (.database .workerCrashed)),
        ⟨⟨["CREATE TABLE jobs (id)"], some []⟩, none, []⟩) := by
    change @Eq (Except Failure InstallReport × Journal)
      (run journals.answer (earlierMigrator.install default) _) _
    rw [Migrator.install_of_not_reset rfl, Migrator.installFrom, upFiles_earlier]
    decide +kernel
  have hlast : last.1 =
      .ok ⟨false, some "1.base.up.sql", ["2.early.up.sql", "10.late.up.sql"]⟩ := by
    change (run journals.answer (migrator.install default) first.2).1 = _
    rw [hfirst, Migrator.install_of_not_reset rfl, Migrator.installFrom, upFiles_migrator]
    decide +kernel
  have hruns : journals.Runs migrator.context ([earlier] ++ [directory])
      (blank [false, false, true]) first.2 :=
    .install (.start _) List.mem_cons_self (rfl : run journals.answer
      (earlierMigrator.install default) (blank [false, false, true]) = (first.1, first.2))
  have hrun : run journals.answer (migrator.install default) first.2 =
      (.ok ⟨false, some "1.base.up.sql", ["2.early.up.sql", "10.late.up.sql"]⟩, last.2) :=
    Prod.ext hlast rfl
  obtain ⟨-, hdistinct, -⟩ := Backend.path_independent
    (.cons_cons earlier_grows (.singleton _))
    (fun _ => repeatable_directory) rfl rfl hruns hrun
  exact ⟨by rw [hfirst]; rfl, hlast, hdistinct isDistinct_directory directory (List.Perm.refl _)⟩

end Journal

end RecordLayer.Migration
