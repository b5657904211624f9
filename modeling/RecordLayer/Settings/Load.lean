import RecordLayer.Settings.Document
import RecordLayer.Settings.Environment
import RecordLayer.Toml

/-!
# Settings — Load

Settings come from three places, each laid over the one before: the defaults, a file, and the
environment.
-/

namespace RecordLayer.Settings

/-- The name of the file that is read if none is asked for. -/
def usualFile : String :=
  "agentdb.toml"

/-- A settings file that is looked for. -/
structure File where
  /-- it was asked for by name, so that it has to be there -/
  required : Bool
  /-- its text, if it is there -/
  text : Option String

/-- What a settings file says; nothing if it cannot be read. -/
def File.document? (file : File) : Option Json :=
  match file.text with
  | some text => Toml.read? text
  | none => if file.required then none else some (.object [])

/-- The settings of a file and some variables; nothing if they cannot be read. -/
def read? (file : File) (environment : List (String × String)) : Option Settings := do
  let usual : Settings := {}
  let stored ← file.document?
  ofJson? ((usual.toJson.overlay stored).overlay (ofEnvironment environment))

/-- The settings, if they can be read and used. -/
def load (file : File) (environment : List (String × String)) :
    Except Failure Settings := do
  match read? file environment with
  | none => throw (.config "the settings cannot be read")
  | some s =>
    s.check
    return s

end RecordLayer.Settings
