import RecordLayer.Migration.Migrator
import RecordLayer.Settings.Load
import RecordLayer.Store.Connection

/-!
# Command line

Rehearsing migrations: tasks are carried out one after another on a store in memory that starts
without tables, and each says what came of it.
-/

namespace RecordLayer.CommandLine
open Migration

inductive Task where
  | install
  | drop
  | status
deriving DecidableEq, Repr

def Task.ofName? : String → Option Task
  | "install" => some .install
  | "drop"    => some .drop
  | "status"  => some .status
  | _         => none

/-- What is asked for: tasks, and the migration files to carry them out with. -/
structure Request where
  settingsFile : Option String := none
  reset : Bool := false
  tasks : List Task := []
  files : List String := []
deriving DecidableEq, Repr

def usage : String :=
  "[--config FILE] [--reset] (install|drop|status)... FILE..."

/-- The request that arguments make: options first, then tasks, then files. -/
def Request.ofArguments? : List String → Option Request
  | [] => none
  | "--config" :: file :: rest | "-c" :: file :: rest =>
    (ofArguments? rest).map fun r => { r with settingsFile := some file }
  | "--reset" :: rest => (ofArguments? rest).map fun r => { r with reset := true }
  | name :: rest =>
    let names := name :: rest
    let tasks := names.takeWhile fun name => (Task.ofName? name).isSome
    if tasks.isEmpty then none
    else some { tasks := tasks.filterMap Task.ofName?, files := names.drop tasks.length }

/-- The name of a file without the directories before it. -/
def fileName (path : String) : String :=
  ((Text.cutAt '/' path.toList).getLast?.map String.ofList).getD path

/-- What a task says when it is done. -/
def Task.work (m : Migrator) (clock : Clock) : Task → Work (Except Failure String)
  | install => do
    match ← m.install clock with
    | .error failure => return .error failure
    | .ok report =>
      let base := if report.bootstrapped then report.base.toList else []
      return .ok ("installed: " ++ joinWith ", " (base ++ report.applied))
  | drop => do
    match ← m.dropAll with
    | .error failure => return .error failure
    | .ok names => return .ok ("reverted: " ++ joinWith ", " names)
  | status => do
    match ← m.state with
    | .error failure => return .error failure
    | .ok state => return .ok ("state: " ++ state.name)

/-- Carries out tasks, each by a clock, up to the first that fails, and gives what they say. -/
def rehearse (m : Migrator) : List (Task × Clock) → Store.Connection →
    List String × Option Failure
  | [], _ => ([], none)
  | (task, clock) :: rest, c =>
    match (task.work m clock).run Store.Connection.answer c with
    | (.error failure, _) => ([], some failure)
    | (.ok line, c) =>
      let (lines, failed) := rehearse m rest c
      (line :: lines, failed)

/-- The migrator of settings and files, by their names and bytes; only tables in a file can be
rehearsed. -/
def migrator (s : Settings) (r : Request) (files : List (String × List UInt8)) :
    Except Failure Migrator := do
  let d ← s.database.dialect?
  if d ≠ .sqlite then throw (.connection ("no store for " ++ d.name))
  let items := files.map fun (path, bytes) => (fileName path, Item.file (.bytes bytes))
  return {
    context := ⟨d, Rulebook.builtin⟩
    directory := ⟨s.database.migrationsPath d, some items⟩
    reset := s.database.reset || r.reset }

end RecordLayer.CommandLine
