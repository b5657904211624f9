import RecordLayer.Settings
import RecordLayer.Url.Read

/-!
# Settings — Connection

The URL under which the configured database is reached.  A database in a file has its path in the
URL as it is; one on a server has a URL of all its settings.
-/

namespace RecordLayer.DatabaseSettings

/-- The URL of a database in a file, which is made if it is missing. -/
def fileUrl (s : DatabaseSettings) : String :=
  "sqlite://" ++ s.path ++ "?mode=rwc"

/-- The result of setting a part of the URL. -/
def orRefused (part : String) : Option Url → Except Failure Url
  | some url => .ok url
  | none     => .error (.config ("cannot set " ++ part ++ " on database url"))

/-- The URL that the host's text makes: it may say more than a host. -/
def hostUrl (s : DatabaseSettings) (d : Dialect) : Except Failure Url :=
  match Url.read d.name s.host with
  | .ok url => .ok url
  | .error e => .error (.config ("invalid database host: " ++ e.message))

/-- The URL of a database on a server: port and name always count, user, password and TLS mode
if they are not empty. -/
def serverUrl (s : DatabaseSettings) (d : Dialect) : Except Failure Url := do
  let url ← s.hostUrl d
  let port := s.port.elim d.defaultPort UInt16.toNat
  let url ← orRefused "port" (url.withPort? port)
  let url ← if s.user.isEmpty then .ok url else orRefused "user" (url.withUser? s.user)
  let url ← if s.password.isEmpty then .ok url
    else orRefused "password" (url.withPassword? s.password)
  let url := url.withPath s.name
  return match s.sslMode with
    | some mode => if mode.isEmpty then url else url.withFormValue d.sslParam mode
    | none => url

/-- The URL under which the database is reached. -/
def connectionUrl (s : DatabaseSettings) : Except Failure String := do
  let d ← s.dialect?
  if d = .sqlite then return s.fileUrl else return toString (← s.serverUrl d)

end RecordLayer.DatabaseSettings
