import RecordLayer.Failure

/-!
# Dialects

The three SQL dialects and what differs between them: names, default ports, placeholders,
whether an insert can return the new key, and the cast that a decimal bound as text needs.
-/

namespace RecordLayer

inductive Dialect where
  | sqlite
  | postgres
  | mysql
deriving DecidableEq, Repr, Inhabited

namespace Dialect

/-- The dialect's name, which is also the scheme of its URLs and its migration directory. -/
def name : Dialect → String
  | sqlite   => "sqlite"
  | postgres => "postgres"
  | mysql    => "mysql"

/-- The dialect of a configured name, with its usual other names; letter case and blanks around
it do not count. -/
def ofName? (name : String) : Except Failure Dialect :=
  match (trim name).toLower with
  | "sqlite" | "sqlite3" => .ok sqlite
  | "postgres" | "postgresql" | "pg" => .ok postgres
  | "mysql" => .ok mysql
  | _ => .error (.unsupportedDialect name)

def defaultPort : Dialect → Nat
  | sqlite   => 0
  | postgres => 5432
  | mysql    => 3306

/-- The URL parameter that carries the TLS mode. -/
def sslParam : Dialect → String
  | mysql             => "ssl-mode"
  | sqlite | postgres => "sslmode"

/-- The placeholder of the `n`th bound value, counted from 1. -/
def placeholder : Dialect → Nat → String
  | postgres, n => "$" ++ toString n
  | sqlite,   _ => "?"
  | mysql,    _ => "?"

/-- An insert reports the new key through `RETURNING`. -/
def supportsReturning : Dialect → Bool
  | sqlite | postgres => true
  | mysql             => false

/-- The cast behind the placeholder of a decimal, which is bound as text. -/
def decimalCast : Dialect → String
  | postgres       => "::numeric"
  | sqlite | mysql => ""

end Dialect

end RecordLayer
