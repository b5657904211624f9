import RecordLayer.Catalog
import RecordLayer.Migration.Directory
import RecordLayer.Sql.Script
import RecordLayer.Transaction

/-!
# Migrations — Migrator

Bringing a database's schema up to date and taking it down again.  The lowest up file is the
base: it creates the tracking table, runs once in a transaction of its own and is not recorded.
All later files above the highest recorded number run in one transaction, each recorded right
after it has run.
-/

namespace RecordLayer.Migration

inductive State where
  /-- there is no tracking table -/
  | unbootstrapped
  /-- there is one, and files are pending -/
  | bootstrapped
  | upToDate
deriving DecidableEq, Repr

namespace State

def name : State → String
  | unbootstrapped => "Unbootstrapped"
  | bootstrapped   => "Bootstrapped"
  | upToDate       => "UpToDate"

end State

/-- What an install did. -/
structure InstallReport where
  /-- the base was run -/
  bootstrapped : Bool
  base : Option String
  applied : List String
deriving DecidableEq

/-- A migrator works by a context, on a directory, and may start by dropping everything. -/
structure Migrator where
  context : Context
  directory : Directory
  reset : Bool

/-- Runs a script's statements in order, up to the first that fails. -/
def runStatements (fileName : String) : List String → Session (Except Failure Unit)
  | [] => .done (.ok ())
  | sql :: rest => .ask (Statement.execute sql []) fun
    | .ok _ => runStatements fileName rest
    | .error failure => .done (.error (.migration fileName failure))

def runScript (fileName script : String) : Session (Except Failure Unit) :=
  runStatements fileName (Sql.statements script)

namespace Migrator
variable (m : Migrator)

def highestQuery : String :=
  "SELECT COALESCE(MAX(number), 0) AS highest FROM " ++ Catalog.migrationTable

def appliedQuery : String :=
  "SELECT id, number, name, applied_at FROM " ++ Catalog.migrationTable ++ " ORDER BY id ASC"

def forgetStatement : String :=
  "DELETE FROM " ++ Catalog.migrationTable ++ " WHERE number = :number"

/-- The highest recorded number, 0 if none is; nothing if there is no tracking table. -/
def highest : Session (Except Failure (Option Int64)) := do
  match ← m.context.queryRow highestQuery ∅ with
  | .ok row => return .ok (some ((row.head?.bind Value.asInt?).getD 0))
  | .error (.database error) =>
    if m.context.dialect.classify error = .relationNotFound then return .ok none
    else return .error (.database error)
  | .error failure => return .error failure

/-- The up files, and the base among them. -/
def upFiles : Except Failure (List File × File) := do
  match ← m.directory.discover .up with
  | base :: rest => return (base :: rest, base)
  | [] => .error (.missingBaseMigration m.directory.path)

/-- The number above which files are pending. -/
def floor (highest : Int64) (base : File) : Int64 :=
  if highest < base.number then base.number else highest

def pending (files : List File) (floor : Int64) : List File :=
  files.filter fun f => floor < f.number

/-- How far a database has come. -/
def state : Work (Except Failure State) :=
  match m.upFiles with
  | .error failure => .done (.error failure)
  | .ok (files, base) => do
    match ← Work.ofSession m.highest with
    | .error failure => return .error failure
    | .ok none => return .ok .unbootstrapped
    | .ok (some highest) =>
      if (pending files (floor highest base)).isEmpty then return .ok .upToDate
      else return .ok .bootstrapped

/-! ### Dropping every table -/

/-- Sends statements in order, up to the first that fails. -/
def executeAll : List String → Session (Except Failure Unit)
  | [] => .done (.ok ())
  | sql :: rest => .ask (Statement.execute sql []) fun
    | .ok _ => executeAll rest
    | .error failure => .done (.error failure)

/-- The text of a row's only column. -/
def nameOf : Row → Except Failure String
  | (_, .text s) :: _ => .ok s
  | _ => .error (.database (.protocol "a table name is no text"))

/-- The statements that drop tables with the keys between them switched off. -/
def dropTables (off on quote : String) (tables : List String) : List String :=
  [off] ++ tables.map (fun t => "DROP TABLE IF EXISTS " ++ quote ++ t ++ quote) ++ [on]

/-- Asks for the names of the tables and sends the statements made of them. -/
def dropListed (query : String) (drops : List String → List String) :
    Session (Except Failure Unit) := do
  match ← Session.fetch query [] with
  | .error failure => return .error failure
  | .ok rows =>
    match rows.mapM nameOf with
    | .error failure => return .error failure
    | .ok tables => executeAll (drops tables)

/-- Drops every table, or the whole schema where the dialect has one. -/
def dropEverything (dialect : Dialect) : Session (Except Failure Unit) :=
  match dialect with
  | .postgres =>
    executeAll ["DROP SCHEMA IF EXISTS public CASCADE", "CREATE SCHEMA public",
      "GRANT ALL ON SCHEMA public TO public"]
  | .sqlite =>
    dropListed
      "SELECT name FROM sqlite_master WHERE type = 'table' AND name NOT LIKE 'sqlite_%'"
      (dropTables "PRAGMA foreign_keys = OFF" "PRAGMA foreign_keys = ON" "\"")
  | .mysql =>
    dropListed ("SELECT CAST(table_name AS CHAR) FROM information_schema.tables " ++
        "WHERE table_schema = DATABASE()")
      (dropTables "SET FOREIGN_KEY_CHECKS = 0" "SET FOREIGN_KEY_CHECKS = 1" "`")

def resetAll : Work (Except Failure Unit) :=
  Work.ofSession (dropEverything m.context.dialect)

/-! ### Installing -/

/-- Runs a file and records it. -/
def applyFile (now : Instant) (file : File) (script : String) :
    Session (Except Failure Unit) := do
  match ← runScript file.fileName script with
  | .error failure => return .error failure
  | .ok () =>
    let requested := Catalog.newMigration file.number file.fileName now
    let written ← m.context.insert (Record.empty Catalog.migration) requested
    match written.result with
    | .error failure => return .error (.migration file.fileName failure)
    | .ok _ => return .ok ()

/-- Runs files in order and records each, with a reading of the clock; gives their names. -/
def applyFiles (clock : Clock) : List (File × String) → Session (Except Failure (List String))
  | [] => .done (.ok [])
  | (file, script) :: rest => do
    match ← m.applyFile (clock 0) file script with
    | .error failure => return .error failure
    | .ok () =>
      let names ← applyFiles clock.later rest
      return names.map (file.fileName :: ·)

/-- The highest recorded number, after the base has run if it had to, and whether it had. -/
def bootstrap (base : File) : Work (Except Failure (Int64 × Bool)) := do
  match ← Work.ofSession m.highest with
  | .error failure => return .error failure
  | .ok (some highest) => return .ok (highest, false)
  | .ok none =>
    match base.content.read with
    | .error failure => return .error failure
    | .ok script =>
      match ← Work.transaction (runScript base.fileName script) with
      | .error failure => return .error failure
      | .ok () => return .ok (base.number, true)

/-- The files with their scripts. -/
def readAll (files : List File) : Except Failure (List (File × String)) :=
  files.mapM fun file => do return (file, ← file.content.read)

/-- Runs the base if it has to, then all pending files in one transaction. -/
def installFrom (clock : Clock) : Work (Except Failure InstallReport) :=
  match m.upFiles with
  | .error failure => .done (.error failure)
  | .ok (files, base) => do
    match ← m.bootstrap base with
    | .error failure => return .error failure
    | .ok (highest, bootstrapped) =>
      match readAll (pending files (floor highest base)) with
      | .error failure => return .error failure
      | .ok [] => return .ok ⟨bootstrapped, some base.fileName, []⟩
      | .ok scripts =>
        let applied ← Work.transaction (m.applyFiles clock scripts)
        return applied.map fun names => ⟨bootstrapped, some base.fileName, names⟩

/-- Brings the schema up to date, dropping everything first if the migrator is set to. -/
def install (clock : Clock) : Work (Except Failure InstallReport) := do
  if m.reset then
    match ← m.resetAll with
    | .error failure => return .error failure
    | .ok () => m.installFrom clock
  else m.installFrom clock

/-! ### Taking down -/

/-- Runs a down file and forgets its number if asked to. -/
def revertFile (file : File) (script : String) (forget : Bool) :
    Session (Except Failure Unit) := do
  match ← runScript file.fileName script with
  | .error failure => return .error failure
  | .ok () =>
    if forget then
      let forgotten ← m.context.execute forgetStatement
        ((∅ : Params).insert "number" (.int file.number))
      match forgotten with
      | .error failure => return .error (.migration file.fileName failure)
      | .ok _ => return .ok ()
    else return .ok ()

/-- Runs down files in order, each in a transaction of its own; gives their names. -/
def revertFiles (tracked : Bool) (lowest : Option Int64) :
    List File → Work (Except Failure (List String))
  | [] => .done (.ok [])
  | file :: rest =>
    match file.content.read with
    | .error failure => .done (.error failure)
    | .ok script => do
      let forget := tracked && some file.number != lowest
      match ← Work.transaction (m.revertFile file script forget) with
      | .error failure => return .error failure
      | .ok () =>
        let names ← revertFiles tracked lowest rest
        return names.map (file.fileName :: ·)

/-- Runs the down files from the highest number to the lowest, up to the first that fails.  The
records of all but the lowest are removed if there is a tracking table. -/
def dropAll : Work (Except Failure (List String)) :=
  match m.directory.discover .down with
  | .error failure => .done (.error failure)
  | .ok files => do
    match ← Work.ofSession m.highest with
    | .error failure => return .error failure
    | .ok highest =>
      m.revertFiles highest.isSome (files.head?.map File.number) files.reverse

/-- The recorded migrations, in the order in which they were applied. -/
def applied : Work (Except Failure (List (Record Catalog.migration))) :=
  Work.ofSession (m.context.queryRecords Catalog.migration appliedQuery ∅)

end Migrator

end RecordLayer.Migration
