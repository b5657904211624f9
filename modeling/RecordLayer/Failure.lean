import RecordLayer.NameMap
import RecordLayer.Text.Blank
import RecordLayer.Text.Digits
import RecordLayer.Text.Visible

/-!
# Failures

Everything an operation can fail with, by cause: what a backend reports, what is refused before
a backend is asked, and what goes wrong around files and settings.  `Failure.message` words
them; `Failure.isRetryable` says which may pass when the operation is repeated.
-/

namespace RecordLayer

/-! ### Backend errors -/

/-- What kind of constraint a backend says was broken. -/
inductive ReportKind where
  | unique
  | foreign
  | notNull
  | check
  | other
deriving DecidableEq, Repr

/-- An error that the database itself reports. -/
structure Report where
  code : Option String
  message : String
  kind : ReportKind
  constraint : Option String
deriving DecidableEq, Repr

inductive BackendError where
  | reported (report : Report)
  | rowNotFound
  | poolTimedOut
  | poolClosed
  | workerCrashed
  | protocol (text : String)
  | columnNotFound (name : String)
  | io (text : String)
deriving DecidableEq, Repr

def BackendError.message : BackendError → String
  | reported report => "error returned from database: " ++ report.message
  | rowNotFound =>
    "no rows returned by a query that expected to return at least one row"
  | poolTimedOut => "pool timed out while waiting for an open connection"
  | poolClosed => "attempted to acquire a connection on a closed pool"
  | workerCrashed => "attempted to communicate with a crashed background worker"
  | protocol text => "encountered unexpected or invalid data: " ++ text
  | columnNotFound name => "no column found for name: " ++ name
  | io text => "error communicating with database: " ++ text

/-- The error lies with the connection and may pass. -/
def BackendError.isTransient : BackendError → Bool
  | poolTimedOut | io _ | workerCrashed => true
  | _ => false

/-! ### Spans of time -/

/-- A span of time in whole seconds and a rest in nanoseconds. -/
structure Duration where
  seconds : Nat
  nanos : Nat
deriving DecidableEq, Repr

/-- A whole number and the places behind its point, trailing zeros left out. -/
def Duration.renderPlaces (whole places width : Nat) : List Char :=
  let fraction := (Text.paddedDigits width places).reverse.dropWhile (· == '0') |>.reverse
  Nat.toDigits 10 whole ++ if fraction.isEmpty then [] else '.' :: fraction

/-- The span in the largest of the units s, ms, µs and ns that it fills. -/
def Duration.render (d : Duration) : String :=
  let nanos := d.nanos % 1000000000
  let seconds := d.seconds + d.nanos / 1000000000
  if 0 < seconds then .ofList (renderPlaces seconds nanos 9) ++ "s"
  else if 1000000 ≤ nanos then
    .ofList (renderPlaces (nanos / 1000000) (nanos % 1000000) 6) ++ "ms"
  else if 1000 ≤ nanos then .ofList (renderPlaces (nanos / 1000) (nanos % 1000) 3) ++ "µs"
  else .ofList (renderPlaces nanos 0 0) ++ "ns"

/-! ### Failures -/

/-- Messages by field name. -/
abbrev FieldErrors := NameMap String

inductive Failure where
  | connection (text : String)
  | unsupportedDialect (name : String)
  | config (text : String)
  | database (error : BackendError)
  | validation (errors : FieldErrors)
  | notFound
  | missingParam (name : String)
  | emptyChangeset (table : String)
  | missingIdentity (table : String)
  | decode (column message : String)
  | timeout (limit : Duration)
  | migration (file : String) (source : Failure)
  | missingBaseMigration (directory : String)
  | io (text : String)
deriving DecidableEq

namespace Failure

def hexDigits (n : Nat) : List Char :=
  Nat.toDigits 16 n

/-- A character inside quotes: quotes, backslashes and whatever does not show are escaped. -/
def escaped (c : Char) : List Char :=
  match c with
  | '"'  => ['\\', '"']
  | '\\' => ['\\', '\\']
  | '\n' => ['\\', 'n']
  | '\t' => ['\\', 't']
  | '\r' => ['\\', 'r']
  | '\x00' => ['\\', '0']
  | c =>
    if Text.isVisible c then [c]
    else '\\' :: 'u' :: '\x7b' :: hexDigits c.toNat ++ ['\x7d']

def quoted (s : String) : String :=
  .ofList ('"' :: (s.toList.flatMap escaped ++ ['"']))

/-- Field errors on one line, by name. -/
def renderErrors (errors : FieldErrors) : String :=
  let entries := errors.entries.map fun (name, message) => quoted name ++ ": " ++ quoted message
  "\x7b" ++ joinWith ", " entries ++ "\x7d"

def message : Failure → String
  | connection text => "Connection error: " ++ text
  | unsupportedDialect name => "Unsupported dialect: " ++ name
  | config text => "Configuration error: " ++ text
  | database error => "Database error: " ++ error.message
  | validation errors => "Validation failed: " ++ renderErrors errors
  | notFound => "Record not found"
  | missingParam name => "Missing parameter :" ++ name
  | emptyChangeset table => "Nothing to write for table " ++ table
  | missingIdentity table => "Table " ++ table ++ " has no identity field"
  | decode column message => "Failed to decode column " ++ column ++ ": " ++ message
  | timeout limit => "Query timed out after " ++ limit.render
  | migration file source => "Migration " ++ file ++ " failed: " ++ source.message
  | missingBaseMigration directory => "No base migration found in " ++ directory
  | io text => "IO error: " ++ text

/-- The same operation may succeed later. -/
def isRetryable : Failure → Bool
  | timeout _ => true
  | database error => error.isTransient
  | _ => false

/-- The field errors that a failed validation carries. -/
def fieldErrors? : Failure → Option FieldErrors
  | validation errors => some errors
  | _ => none

end Failure

end RecordLayer
