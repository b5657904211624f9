import RecordLayer.Session

/-!
# Transactions

Work on a database: sessions, and transactions around them.  A transaction is committed when
its session ends well and rolled back when it ends in a failure; that failure is handed back
even if the rollback fails too.
-/

namespace RecordLayer

inductive Request where
  | statement (s : Statement)
  | opening
  | commit
  | rollback
deriving DecidableEq

@[reducible] def Request.Answer : Request → Type
  | statement s => s.Answer
  | opening     => Except Failure Unit
  | commit      => Except Failure Unit
  | rollback    => Except Failure Unit

/-- Work on a database: statements, and transactions that hold several together. -/
abbrev Work (α : Type) := Dialogue Request Request.Answer α

namespace Work
variable {α : Type}

/-- A session as work. -/
def ofSession (session : Session α) : Work α :=
  session.translate Request.statement fun _ answer => answer

/-- Ends a transaction the way its session ended. -/
def close (outcome : Except Failure α) : Work (Except Failure α) :=
  match outcome with
  | .ok a => .ask Request.commit fun
    | .ok ()          => .done (.ok a)
    | .error failure  => .done (.error failure)
  | .error failure => .ask Request.rollback fun _ => .done (.error failure)

/-- A session in a transaction of its own. -/
def transaction (session : Session (Except Failure α)) : Work (Except Failure α) :=
  .ask Request.opening fun
    | .error failure => .done (.error failure)
    | .ok ()         => (ofSession session).bind close

end Work

end RecordLayer
