import RecordLayer.CommandLine
import Std.Time.DateTime.Timestamp

/-!
# Main

The program: reads arguments, settings and files, rehearses, and prints what the tasks say.
-/

namespace RecordLayer

/-- The variables that are set, of those that can hold a setting. -/
def setVariables : IO (List (String × String)) := do
  let found ← Settings.variableNames.mapM fun name => do
    return (← IO.getEnv name).map fun value => (name, value)
  return found.filterMap id

/-- The text of a file, if it can be read. -/
def textOf? (path : String) : IO (Option String) := do
  try
    return some (← IO.FS.readFile path)
  catch _ => return none

/-- The instant that it is. -/
def currentInstant : IO Instant := do
  return .ofNanos (← Std.Time.Timestamp.now).toNanosecondsSinceUnixEpoch.val

/-- A clock that shows so many instants, read one after another. -/
def readClock (times : Nat) : IO Clock := do
  let instants ← (List.range times).mapM fun _ => currentInstant
  return fun n => instants.getD n default

end RecordLayer

open RecordLayer in
def main (arguments : List String) : IO UInt32 := do
  match CommandLine.Request.ofArguments? arguments with
  | none =>
    IO.eprintln CommandLine.usage
    return 2
  | some request =>
    let text ← textOf? (request.settingsFile.getD Settings.usualFile)
    let files ← request.files.mapM fun (path : String) => do
      return (path, (← IO.FS.readBinFile path).toList)
    let environment ← setVariables
    let ready := do
      let s ← Settings.load ⟨request.settingsFile.isSome, text⟩ environment
      CommandLine.migrator s request files
    match ready with
    | .error failure =>
      IO.eprintln failure.message
      return 1
    | .ok m =>
      -- no task records more files than there are
      let tasks ← request.tasks.mapM fun task => do return (task, ← readClock files.length)
      let (lines, failed) := CommandLine.rehearse m tasks .fresh
      lines.forM IO.println
      match failed with
      | some failure =>
        IO.eprintln failure.message
        return 1
      | none => return 0
