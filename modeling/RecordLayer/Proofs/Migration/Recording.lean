import RecordLayer.Catalog
import RecordLayer.Migration.Migrator
import RecordLayer.Proofs.Writing

/-!
# Migrations — Recording a file

A file is recorded by an insert, which leaves out what is blank.  A file with a number above zero
and a name leaves nothing out: the statement that is sent writes its number, its name and the
instant, whatever the dialect (`insertRequest_newMigration`).

The highest number recorded is asked for by one query.  It is the number answered, and there is none
if the query fails for want of the table (`Migrator.run_highest_error`).
-/

namespace RecordLayer

theorem Record.put_eq_set {e : Entity} {name : String} {i : e.Position}
    (hi : e.byName? name = some i) {v : Value} {x : (e.field i).kind.Content}
    (hx : (e.field i).kind.read? v = some x) (r : Record e) : r.put name v = r.set i x := by
  simp only [put, hi, Option.bind_some, assign?, hx, Option.map_some, Option.getD_some]

namespace Migration
open Dialogue Catalog

/-! ### The record of a file -/

/-- The columns of a record, in order. -/
def recordColumns : List String :=
  ["number", "name", "applied_at"]

def recordValues (number : Int64) (fileName : String) (now : Instant) : List Value :=
  [.int number, .text fileName, .timestamp now]

/-- The statement that records a file. -/
def recordStatement (dialect : Dialect) (number : Int64) (fileName : String) (now : Instant) :
    Statement :=
  let values := recordValues number fileName now
  if dialect.supportsReturning then
    .fetch (Sql.insertText dialect migrationTable recordColumns values (some "id")) values
  else .execute (Sql.insertText dialect migrationTable recordColumns values none) values

theorem isTabular_migration : migration.IsTabular :=
  ⟨by decide, by decide, by decide⟩

variable {number : Int64} {fileName : String} {now : Instant}

theorem newMigration_eq : newMigration number fileName now =
    (((Record.empty migration).set ⟨1, by decide⟩ number).set ⟨2, by decide⟩ fileName).set
      ⟨3, by decide⟩ (some now) := by
  have hnumber : migration.byName? "number" = some ⟨1, by decide⟩ := by decide +kernel
  have hname : migration.byName? "name" = some ⟨2, by decide⟩ := by decide +kernel
  have happlied : migration.byName? "applied_at" = some ⟨3, by decide⟩ := by decide +kernel
  rw [newMigration, Record.put_eq_set happlied rfl, Record.put_eq_set hname rfl,
    Record.put_eq_set hnumber rfl]
  rfl

theorem map_value_newMigration : (migration.positions.drop 1).map
    (newMigration number fileName now).value = recordValues number fileName now := by
  rw [newMigration_eq]
  rfl

/-! ### Writing it -/

/-- Nothing is left out but the key. -/
theorem contributing_newMigration (hnumber : number ≠ 0) (hname : fileName ≠ "") :
    Record.contributing .insert (Record.empty migration) (newMigration number fileName now) =
      migration.positions.drop 1 := by
  have hpositions : migration.positions = ⟨0, by decide⟩ :: migration.positions.drop 1 := rfl
  have hnot : ¬ Record.contributes .insert (Record.empty migration)
      (newMigration number fileName now) ⟨0, by decide⟩ = true := Bool.false_ne_true
  -- an insert leaves out what is blank, the number zero and the empty name among it
  have hrest : ∀ i ∈ migration.positions.drop 1, Record.contributes .insert
      (Record.empty migration) (newMigration number fileName now) i = true := by
    have hblank : (Value.int number).isBlank = false := beq_eq_false_iff_ne.2 hnumber
    have hempty : (Value.text fileName).isBlank = false := String.isEmpty_eq_false_iff.2 hname
    rw [newMigration_eq]
    exact List.forall_mem_cons.2 ⟨congrArg not hblank,
      List.forall_mem_cons.2 ⟨congrArg not hempty, List.forall_mem_singleton.2 rfl⟩⟩
  rw [Record.contributing, hpositions, List.filter_cons_of_neg hnot, List.filter_eq_self.2 hrest]
  rfl

theorem validate_migration (ctx : Context) (r : Record migration) : ctx.validate r = .ok () :=
  rfl

theorem insertRequest_newMigration (ctx : Context) (hnumber : number ≠ 0) (hname : fileName ≠ "") :
    ctx.insertRequest (Record.empty migration) (newMigration number fileName now) =
      recordStatement ctx.dialect number fileName now := by
  have hkey : ctx.returning? migration =
      if ctx.dialect.supportsReturning then some "id" else none := rfl
  have hcolumns : (migration.positions.drop 1).map migration.columnOf = recordColumns := rfl
  rw [Context.insertRequest, contributing_newMigration hnumber hname, Context.insertSql,
    map_value_newMigration, hcolumns, hkey, recordStatement]
  cases ctx.dialect.supportsReturning with
  | false => rfl
  | true => rfl

section
variable {σ : Type} {answer : Answerer Statement Statement.Answer σ} {s t : σ}

/-- A record has been sent as one statement, and it is written only if that was carried out. -/
theorem run_insert_migration (ctx : Context) (hnumber : number ≠ 0) (hname : fileName ≠ "")
    {written : Written migration InsertResult}
    (hrun : run answer (ctx.insert (Record.empty migration) (newMigration number fileName now)) s =
      (written, t)) :
    ∃ x, answer (recordStatement ctx.dialect number fileName now) s = (x, t) ∧
      ∀ result, written.result = .ok result → Statement.succeeded _ x = true := by
  have hsome : Record.contributing .insert (Record.empty migration)
      (newMigration number fileName now) ≠ [] := by
    rw [contributing_newMigration hnumber hname]
    exact List.cons_ne_nil _ _
  have hsent := Context.run_insert isTabular_migration.isWritable (validate_migration _ _) hsome
    hrun
  rw [insertRequest_newMigration ctx hnumber hname] at hsent
  exact hsent

/-! ### Asking for the highest number -/

namespace Migrator
variable {m : Migrator}

/-- The failure says that there is no tracking table. -/
def reportsNoTable (m : Migrator) : Failure → Bool
  | .database error => m.context.dialect.classify error == .relationNotFound
  | _               => false

theorem reportsNoTable_eq_true_iff {failure : Failure} : m.reportsNoTable failure = true ↔
    ∃ error, failure = .database error ∧ m.context.dialect.classify error = .relationNotFound := by
  cases failure with
  | database error =>
    rw [reportsNoTable, beq_iff_eq]
    exact ⟨fun h => ⟨error, rfl, h⟩, fun ⟨_, heq, h⟩ => (Failure.database.inj heq) ▸ h⟩
  | _ => exact ⟨(fun h => by cases h), fun ⟨_, heq, _⟩ => by cases heq⟩

theorem expand_highestQuery (dialect : Dialect) :
    Sql.expand highestQuery ∅ dialect = .ok (highestQuery, []) :=
  Sql.expand_of_isPlain ∅ dialect (by decide +kernel)

theorem run_highest_ok {column : String} {n : Int64}
    (hanswer : answer (.fetch highestQuery []) s = (.ok [[(column, .int n)]], t)) :
    run answer m.highest s = (.ok (some n), t) := by
  unfold highest
  simp only [Context.queryRow, Session.exchange, expand_highestQuery]
  change run answer (.ask (.fetch highestQuery []) _) s = _
  rw [run, hanswer]
  rfl

theorem run_highest_error {failure : Failure}
    (hanswer : answer (.fetch highestQuery []) s = (.error failure, t)) :
    run answer m.highest s =
      (if m.reportsNoTable failure then .ok none else .error failure, t) := by
  unfold highest
  simp only [Context.queryRow, Session.exchange, expand_highestQuery]
  change run answer (.ask (.fetch highestQuery []) _) s = _
  rw [run, hanswer]
  cases failure with
  | database error =>
    -- only a missing table counts as an answer
    change run answer (if m.context.dialect.classify error = .relationNotFound then
      return (.ok none : Except Failure (Option Int64)) else return .error (.database error)) t = _
    by_cases hmissing : m.context.dialect.classify error = .relationNotFound
    · rw [reportsNoTable, if_pos hmissing, if_pos (beq_iff_eq.2 hmissing)]
      rfl
    · rw [reportsNoTable, if_neg hmissing, if_neg (mt beq_iff_eq.1 hmissing)]
      rfl
  | _ => rfl

end Migrator

end

end Migration

end RecordLayer
