import RecordLayer.Json.Content
import RecordLayer.Settings

/-!
# Settings — Document

Settings as documents.  A section is an object under the names of its settings, or a list of them
in order; what is missing has its default and what is not known is passed over.  Each setting
takes contents of its own type only.
-/

namespace RecordLayer

namespace Json

/-- The setting at a place of a section, under its name. -/
def setting? (doc : Json) (place : Nat) (name : String) : Option Json :=
  match doc with
  | list items => items[place]?
  | _          => doc.entry? name

def isSection : Json → Bool
  | list _ | object _ => true
  | _                 => false

/-- The contents of a setting: its default if it is missing, and nothing if it cannot be read. -/
def settingOr {α : Type} (doc : Json) (place : Nat) (name : String) (default : α)
    (read? : Json → Option α) : Option α :=
  match doc.setting? place name with
  | some content => read? content
  | none         => some default

end Json

namespace BasicSettings

def toJson (s : BasicSettings) : Json :=
  .object [("loglevel", .text s.logLevel)]

def ofJson? (doc : Json) : Option BasicSettings := do
  guard doc.isSection
  let usual : BasicSettings := {}
  return { logLevel := ← doc.settingOr 0 "loglevel" usual.logLevel Json.asText? }

end BasicSettings

namespace DatabaseSettings

def toJson (s : DatabaseSettings) : Json :=
  .object [
    ("dialect", .text s.dialect),
    ("host", .text s.host),
    ("port", s.port.elim .null fun n => .int n.toNat),
    ("user", .text s.user),
    ("password", .text s.password),
    ("name", .text s.name),
    ("ssl_mode", s.sslMode.elim .null .text),
    ("path", .text s.path),
    ("migrations_dir", .text s.migrationsDirectory),
    ("max_connections", .int s.maxConnections.toNat),
    ("acquire_timeout_secs", .int s.acquireSeconds.toNat),
    ("query_timeout_secs", s.querySeconds.elim .null fun n => .int n.toNat),
    ("reset", .bool s.reset)]

def readPort? (doc : Json) : Option UInt16 :=
  (doc.asNatural? (twoTo 16)).map .ofNat

def readCount? (doc : Json) : Option UInt32 :=
  (doc.asNatural? (twoTo 32)).map .ofNat

def readSeconds? (doc : Json) : Option UInt64 :=
  (doc.asNatural? (twoTo 64)).map .ofNat

def ofJson? (doc : Json) : Option DatabaseSettings := do
  guard doc.isSection
  let usual : DatabaseSettings := {}
  return {
    dialect := ← doc.settingOr 0 "dialect" usual.dialect Json.asText?
    host := ← doc.settingOr 1 "host" usual.host Json.asText?
    port := ← doc.settingOr 2 "port" usual.port (Json.orAbsent readPort?)
    user := ← doc.settingOr 3 "user" usual.user Json.asText?
    password := ← doc.settingOr 4 "password" usual.password Json.asText?
    name := ← doc.settingOr 5 "name" usual.name Json.asText?
    sslMode := ← doc.settingOr 6 "ssl_mode" usual.sslMode (Json.orAbsent Json.asText?)
    path := ← doc.settingOr 7 "path" usual.path Json.asText?
    migrationsDirectory := ← doc.settingOr 8 "migrations_dir" usual.migrationsDirectory
      Json.asText?
    maxConnections := ← doc.settingOr 9 "max_connections" usual.maxConnections readCount?
    acquireSeconds := ← doc.settingOr 10 "acquire_timeout_secs" usual.acquireSeconds
      readSeconds?
    querySeconds := ← doc.settingOr 11 "query_timeout_secs" usual.querySeconds
      (Json.orAbsent readSeconds?)
    reset := ← doc.settingOr 12 "reset" usual.reset Json.asBool? }

end DatabaseSettings

namespace Settings

def toJson (s : Settings) : Json :=
  .object [("basic", s.basic.toJson), ("database", s.database.toJson)]

def ofJson? (doc : Json) : Option Settings := do
  guard doc.isSection
  return {
    basic := ← doc.settingOr 0 "basic" {} BasicSettings.ofJson?
    database := ← doc.settingOr 1 "database" {} DatabaseSettings.ofJson? }

end Settings

end RecordLayer
