import RecordLayer.Dialect

/-!
# Settings

What can be configured: how much is logged, which database to use and how to reach it, and where
its migrations are.
-/

namespace RecordLayer

structure BasicSettings where
  logLevel : String := "info"
deriving DecidableEq, Repr

structure DatabaseSettings where
  /-- the name of the dialect, as given -/
  dialect : String := "sqlite"
  host : String := "localhost"
  /-- the dialect's usual port if absent -/
  port : Option UInt16 := none
  user : String := ""
  password : String := ""
  name : String := "agentdb"
  sslMode : Option String := none
  /-- the file of a database that is a file -/
  path : String := "agentdb.sqlite"
  migrationsDirectory : String := "migrations"
  maxConnections : UInt32 := 15
  acquireSeconds : UInt64 := 5
  /-- no limit if absent or zero -/
  querySeconds : Option UInt64 := none
  reset : Bool := false
deriving DecidableEq, Repr

structure Settings where
  basic : BasicSettings := {}
  database : DatabaseSettings := {}
deriving DecidableEq, Repr

namespace DatabaseSettings

/-- The settings for a database in a file. -/
def ofFile (path : String) : DatabaseSettings :=
  { path }

/-- The dialect that is named. -/
def dialect? (s : DatabaseSettings) : Except Failure Dialect :=
  Dialect.ofName? s.dialect

/-- How long to wait for a connection. -/
def acquireTimeout (s : DatabaseSettings) : Duration :=
  ⟨s.acquireSeconds.toNat, 0⟩

/-- How long a statement may take, if that is limited. -/
def queryTimeout? (s : DatabaseSettings) : Option Duration :=
  match s.querySeconds with
  | some seconds => if seconds = 0 then none else some ⟨seconds.toNat, 0⟩
  | none => none

/-- The path of a name below a directory; below no directory it is the name itself. -/
def pathBelow (directory name : String) : String :=
  match directory.toList.getLast? with
  | none | some '/' => directory ++ name
  | some _ => directory ++ "/" ++ name

/-- The directory of a dialect's migrations. -/
def migrationsPath (s : DatabaseSettings) (d : Dialect) : String :=
  pathBelow s.migrationsDirectory d.name

end DatabaseSettings

namespace Settings

/-- What has to hold of settings before they are used. -/
def check (s : Settings) : Except Failure Unit := do
  let _ ← s.database.dialect?
  if s.database.maxConnections = 0 then
    throw (.config "database.max_connections must be at least 1")

end Settings

end RecordLayer
