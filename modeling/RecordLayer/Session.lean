import RecordLayer.Dialogue
import RecordLayer.Row
import RecordLayer.Sql.Parameter
import RecordLayer.Sql.Statement
import RecordLayer.Validation

/-!
# Sessions

The operations on a database.  A session sends statements in the dialect's own form and is
answered with rows or with a count; on these two everything is built: queries, queries for
records, inserts, updates and deletes.  What can be refused is refused before anything is sent.
-/

namespace RecordLayer

inductive Statement where
  /-- asks for the rows of a statement -/
  | fetch (sql : String) (values : List Value)
  /-- asks for a statement to be carried out -/
  | execute (sql : String) (values : List Value)
deriving DecidableEq

/-- The answer to a statement that was carried out. -/
structure Done where
  affected : Nat
  lastId : Option Int64
deriving DecidableEq

@[reducible] def Statement.Answer : Statement → Type
  | fetch _ _   => Except Failure (List Row)
  | execute _ _ => Except Failure Done

/-- A conversation with a database over one connection. -/
abbrev Session (α : Type) := Dialogue Statement Statement.Answer α

/-- What the operations go by: a dialect and the rules. -/
structure Context where
  dialect : Dialect
  rulebook : Rulebook

/-- What an insert reports. -/
structure InsertResult where
  affected : Nat
  lastId : Option Int64
deriving DecidableEq

/-- How writing a record ends: the record as it stands afterwards, also after a failure, the
changeset that was drawn up, if it came to that, and the result. -/
structure Written (e : Entity) (α : Type) where
  current : Record e
  drawn : Option Changeset
  result : Except Failure α

namespace Session

def fetch (sql : String) (values : List Value) : Session (Except Failure (List Row)) :=
  .ask (Statement.fetch sql values) .done

def execute (sql : String) (values : List Value) : Session (Except Failure Done) :=
  .ask (Statement.execute sql values) .done

/-- Sends a statement with named parameters and reads the answer to it. -/
def exchange {α β : Type} (send : String → List Value → Session (Except Failure α))
    (dialect : Dialect) (sql : String) (params : Params) (read : α → Except Failure β) :
    Session (Except Failure β) :=
  match Sql.expand sql params dialect with
  | .error failure => .done (.error failure)
  | .ok (sql, values) => do
    let answer ← send sql values
    return answer >>= read

end Session

namespace Context
variable (ctx : Context)

/-! ### Queries -/

def query (sql : String) (params : Params) : Session (Except Failure Rows) :=
  Session.exchange .fetch ctx.dialect sql params Rows.ofAnswer

/-- The first row of a query; it is an error if there is none. -/
def queryRow (sql : String) (params : Params) : Session (Except Failure (List Value)) :=
  Session.exchange .fetch ctx.dialect sql params fun answer => do
    let table ← Rows.ofAnswer answer
    match table.rows with
    | row :: _ => .ok row
    | [] => .error .notFound

/-- The records of a query's rows. -/
def queryRecords (e : Entity) (sql : String) (params : Params) :
    Session (Except Failure (List (Record e))) :=
  Session.exchange .fetch ctx.dialect sql params (·.mapM (Row.scan e))

/-- The record of a query's first row; it is an error if there is none. -/
def queryRecord (e : Entity) (sql : String) (params : Params) :
    Session (Except Failure (Record e)) :=
  Session.exchange .fetch ctx.dialect sql params fun
    | row :: _ => Row.scan e row
    | [] => .error .notFound

/-- Carries out a statement and gives the number of rows it changed. -/
def execute (sql : String) (params : Params) : Session (Except Failure Nat) :=
  Session.exchange .execute ctx.dialect sql params fun done => .ok done.affected

/-! ### Rules and constraints -/

/-- The rules hold for a record. -/
def validate {e : Entity} (r : Record e) : Except Failure Unit :=
  let errors := r.ruleErrors ctx.rulebook
  if errors.isEmpty then .ok () else .error (.validation errors)

/-- The failure as field errors, if it is a broken constraint of the entity. -/
def explain (e : Entity) (failure : Failure) : Failure :=
  match failure with
  | .database error =>
    let errors := e.faultErrors (ctx.dialect.classify error)
    if errors.isEmpty then failure else .validation errors
  | _ => failure

/-! ### Writing records -/

/-- The column through which an insert returns the new key. -/
def returning? (e : Entity) : Option String :=
  if ctx.dialect.supportsReturning then e.identityColumn? else none

/-- What an insert that returns its key reports. -/
def insertedRows (answer : List Row) : Except Failure InsertResult :=
  match answer with
  | [] => .ok ⟨0, none⟩
  | row :: _ => do
    let v ← row.decodeFirst
    return ⟨answer.length, v.asInt?⟩

/-- Sends an insert and reads its report. -/
def sendInsert (e : Entity) (changeset : Changeset) : Session (Except Failure InsertResult) :=
  let returning := ctx.returning? e
  let sql := Sql.insertStatement changeset.columns e.table returning
  match returning with
  | some _ => Session.exchange .fetch ctx.dialect sql changeset.params insertedRows
  | none =>
    Session.exchange .execute ctx.dialect sql changeset.params fun done =>
      .ok ⟨done.affected, done.lastId⟩

/-- The record with the key that a backend assigned to it. -/
def identified {e : Entity} (r : Record e) (result : InsertResult) : Record e :=
  match e.identity?, result.lastId with
  | some i, some id => (r.assign? i (.int id)).getD r
  | _, _ => r

/-- Writes what a record asks for as a new row.  The record as it stands takes it over, with the
key that the backend assigned. -/
def insert {e : Entity} (current requested : Record e) :
    Session (Written e InsertResult) :=
  match ctx.validate requested with
  | .error failure => .done ⟨current, none, .error failure⟩
  | .ok () =>
    let changeset := Record.changeset .insert current requested
    let merged := Record.merged .insert current requested
    if changeset.isEmpty then .done ⟨merged, none, .error (.emptyChangeset e.table)⟩
    else do
      match ← ctx.sendInsert e changeset with
      | .error failure => return ⟨merged, some changeset, .error failure⟩
      | .ok result => return ⟨identified merged result, some changeset, .ok result⟩

/-- Sends an update of the row whose key is `id`. -/
def sendUpdate (e : Entity) (changeset : Changeset) (idColumn : String) (id : Value) :
    Session (Except Failure Unit) :=
  let sql := Sql.updateStatement changeset.columns e.table (idColumn ++ " = :" ++ idColumn) none
  Session.exchange .execute ctx.dialect sql (changeset.bind idColumn id).params fun done =>
    if done.affected = 0 then .error .notFound else .ok ()

/-- Writes the fields in which a record asked for differs from the record as it stands, to the
row of the latter's key.  Nothing is sent if nothing differs. -/
def update {e : Entity} (current requested : Record e) : Session (Written e Changeset) :=
  match e.identity?, e.identityColumn? with
  | some i, some idColumn =>
    let id := current.value i
    if id.isBlank then .done ⟨current, none, .error (.missingIdentity e.table)⟩
    else
      let changeset := Record.changeset .update current requested
      let merged := Record.merged .update current requested
      if changeset.isEmpty then .done ⟨merged, none, .ok changeset⟩
      else do
        let answer ← ctx.sendUpdate e changeset idColumn id
        return ⟨merged, some changeset, answer.map fun () => changeset⟩
  | _, _ => .done ⟨current, none, .error (.missingIdentity e.table)⟩

/-- Removes the row of a key. -/
def delete (e : Entity) (id : Int64) : Session (Except Failure Unit) :=
  match e.identityColumn? with
  | none => .done (.error (.missingIdentity e.table))
  | some idColumn =>
    Session.exchange .execute ctx.dialect (Sql.deleteStatement e.table idColumn)
      ((∅ : Params).insert "id" (.int id)) fun done =>
        if done.affected = 0 then .error .notFound else .ok ()

end Context

end RecordLayer
