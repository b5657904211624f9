import RecordLayer.Failure
import RecordLayer.Migration.FileName
import RecordLayer.Text.Utf8

/-!
# Migrations — Directory

The directory that holds a dialect's migration files, and the migrations found in it: those of
one direction, ordered by number and then by name, whatever the order of the listing.
-/

namespace RecordLayer.Migration

/-- What a file contains. -/
inductive Content where
  | text (s : String)
  | bytes (b : List UInt8)
deriving DecidableEq

/-- The content as text. -/
def Content.read : Content → Except Failure String
  | text s  => .ok s
  | bytes b =>
    match Text.utf8? b with
    | some s => .ok s
    | none => .error (.io "stream did not contain valid UTF-8")

inductive Item where
  | file (content : Content)
  | folder
deriving DecidableEq

/-- A directory: its path, and its items by name if it exists. -/
structure Directory where
  path : String
  items? : Option (List (String × Item))
deriving DecidableEq

/-- A migration that was found. -/
structure File where
  label : FileName
  fileName : String
  content : Content
deriving DecidableEq

namespace File

def number (f : File) : Int64 := f.label.number

/-- Earlier by number, or by name among those of one number. -/
def le (a b : File) : Bool :=
  a.number < b.number || (a.number == b.number && a.label.name ≤ b.label.name)

/-- The migration of one item of a directory, if it is one of the direction. -/
def ofItem? (direction : Direction) : String × Item → Option File
  | (fileName, .file content) => do
    let label ← FileName.ofText? fileName
    if label.direction = direction then some ⟨label, fileName, content⟩ else none
  | (_, .folder) => none

end File

namespace Directory

/-- The migrations of one direction, in order. -/
def discover (d : Directory) (direction : Direction) : Except Failure (List File) :=
  match d.items? with
  | none => .error (.io "No such file or directory (os error 2)")
  | some items => .ok ((items.filterMap (File.ofItem? direction)).mergeSort File.le)

end Directory

end RecordLayer.Migration
