import RecordLayer.Store.Execution
import RecordLayer.Store.Reader.Statement
import RecordLayer.Transaction

/-!
# Store — Connection

A connection to a store answers requests: statements as text with the values bound to their
placeholders, and transactions, of which one can be open.  Rolling one back restores the tables
as they were when it was opened.
-/

namespace RecordLayer.Store

structure Connection where
  store : Store
  /-- the store as it was when the open transaction began -/
  saved : Option Store
  /-- the number of rows that the last change of rows changed -/
  lastChanged : Nat
  closed : Bool
deriving DecidableEq

namespace Connection

/-- A connection to a store without tables. -/
def fresh : Connection := ⟨Store.empty, none, 0, false⟩

/-- The connection after its pool is closed. -/
def close (c : Connection) : Connection := { c with closed := true }

/-- What the answer to some statements leaves: the connection, the rows answered and the sum of
the rows changed; a statement that changes no rows repeats the last count. -/
structure Answer where
  connection : Connection
  rows : List Row
  affected : Nat

/-- The statement was refused before it began to change rows. -/
def isMisfit : Failure → Bool
  | .database (.reported r) => r.code = some "1"
  | _                       => false

/-- The command changes rows, if it does not fail. -/
def changesRows : Command → Bool
  | .insert _ _ _ _ | .update _ _ _ _ | .delete _ _ _ | .dropTable _ _ => true
  | .createTable _ _ | .createIndex _ _ _ | .dropIndex _ _ | .select _ _ _ _ | .foreignKeys _ =>
    false

/-- The connection after a command failed: changes that were taken back count as none. -/
def afterFailure (c : Connection) (command : Command) (failure : Failure) : Connection :=
  if changesRows command && !isMisfit failure then { c with lastChanged := 0 } else c

/-- Carries out the statements of a text, up to the first that fails; what the earlier ones did
stays. -/
def carryOut (values : List Datum) : List (List Lexed) → Answer → Answer × Option Failure
  | [], a => (a, none)
  | ls :: rest, a =>
    match Command.ofLexemes? ls with
    | none => (a, some (misfit "syntax error"))
    | some command =>
      match a.connection.store.execute values command with
      | .error failure =>
        ({ a with connection := a.connection.afterFailure command failure }, some failure)
      | .ok effect =>
        let changed := effect.changed.getD a.connection.lastChanged
        carryOut values rest {
          connection := { a.connection with store := effect.store, lastChanged := changed }
          rows := a.rows ++ effect.rows
          affected := a.affected + changed }

/-- Carries out a text. -/
def send (c : Connection) (sql : String) (values : List Value) : Answer × Option Failure :=
  if c.closed then (⟨c, [], 0⟩, some (.database .poolClosed))
  else carryOut (values.map Datum.ofValue) (commands (lexed sql)) ⟨c, [], 0⟩

/-- What is answered, or the failure if there is one. -/
def outcome {α : Type} (answer : α) : Option Failure → Except Failure α
  | none => .ok answer
  | some failure => .error failure

/-- The answer to a statement. -/
def answerStatement : Answerer Statement Statement.Answer Connection
  | .fetch sql values, c =>
    let (a, failed) := c.send sql values
    (outcome a.rows failed, a.connection)
  | .execute sql values, c =>
    let (a, failed) := c.send sql values
    (outcome ⟨a.affected, none⟩ failed, a.connection)

/-- The answer to a request. -/
def answer : Answerer Request Request.Answer Connection
  | .statement s, c => answerStatement s c
  | .opening, c =>
    if c.closed then (.error (.database .poolClosed), c)
    else (.ok (), { c with saved := some c.store })
  | .commit, c => (.ok (), { c with saved := none })
  | .rollback, c => (.ok (), { c with store := c.saved.getD c.store, saved := none })

/-- The names of the tables, in ascending order. -/
def tableNames (c : Connection) : Except Failure (List String) :=
  if c.closed then .error (.database .poolClosed)
  else .ok ((c.store.tables.map (·.name)).mergeSort fun a b => a ≤ b)

/-- The connection in braces, as it shows itself. -/
def render (c : Connection) : String :=
  "Database \x7b dialect: Sqlite, pool_size: " ++ (if c.closed then "0" else "1") ++ ", .. \x7d"

end Connection

end RecordLayer.Store
