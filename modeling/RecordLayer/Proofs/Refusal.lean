import RecordLayer.Proofs.Inserting

/-!
# What is refused

Broken rules, nothing to write, a key or a parameter that is missing: an operation that ends in one
of these has asked the backend nothing (`refused_before_asking`).  Of the four only a missing
parameter can be found after a changeset is drawn up, and what is left then is a statement that has
not been sent yet (`Session.refused_exchange`); an answer that cannot be read is no refusal.
-/

namespace RecordLayer
open Dialogue

namespace Failure

/-- The backend failed: with an error of its own, or by not answering in time. -/
def isOfBackend : Failure → Bool
  | database _ | timeout _ => true
  | _ => false

theorem isRefusal_of_isOfBackend {failure : Failure} (h : failure.isOfBackend = true) :
    failure.isRefusal = false := by
  cases failure with
  | database error => rfl
  | timeout limit => rfl
  | _ => cases h

end Failure

/-! ### Sessions -/

section
variable {σ α β : Type} (answer : Answerer Statement Statement.Answer σ)

/-- The backend fails of itself or not at all. -/
def FailsOfItself : Prop :=
  ∀ (q : Statement) s failure, q.failure? (answer q s).1 = some failure →
    failure.isOfBackend = true

/-- A session that ends in a refusal has asked nothing. -/
def RefusesFirst (result : α → Except Failure β) (session : Session α) : Prop :=
  ∀ s failure, result (run answer session s).1 = .error failure → failure.isRefusal = true →
    asked answer session s = []

variable {answer}

theorem RefusesFirst.done (result : α → Except Failure β) (a : α) :
    RefusesFirst answer result (.done a) :=
  fun _ _ _ _ => rfl

namespace Session

theorem unrefused_fetch (hanswer : FailsOfItself answer) (sql : String) (values : List Value)
    (s : σ) : Unrefused (run answer (fetch sql values) s).1 := by
  intro failure h
  change (answer (.fetch sql values) s).1 = .error failure at h
  refine Failure.isRefusal_of_isOfBackend (hanswer (.fetch sql values) s failure ?_)
  rw [h]
  rfl

theorem unrefused_execute (hanswer : FailsOfItself answer) (sql : String) (values : List Value)
    (s : σ) : Unrefused (run answer (execute sql values) s).1 := by
  intro failure h
  change (answer (.execute sql values) s).1 = .error failure at h
  refine Failure.isRefusal_of_isOfBackend (hanswer (.execute sql values) s failure ?_)
  rw [h]
  rfl

end Session
end

section
variable {σ α β : Type} {answer : Answerer Statement Statement.Answer σ}

/-- **A statement is refused before it is sent**, and only for a parameter that is missing. -/
theorem Session.refused_exchange {send : String → List Value → Session (Except Failure α)}
    (hsend : ∀ sql values s, Unrefused (run answer (send sql values) s).1)
    {read : α → Except Failure β} (hread : ∀ a, Unrefused (read a)) (dialect : Dialect)
    (sql : String) (params : Params) {s : σ} {failure : Failure}
    (h : (run answer (exchange send dialect sql params read) s).1 = .error failure)
    (hrefusal : failure.isRefusal = true) :
    asked answer (exchange send dialect sql params read) s = [] ∧
      ∃ name, failure = .missingParam name := by
  rw [exchange] at h ⊢
  cases hexpand : Sql.expand sql params dialect with
  | error failure' =>
    rw [hexpand] at h
    cases h
    exact ⟨rfl, Sql.expand_error hexpand⟩
  | ok sent =>
    -- what is sent and what is read from the answer are no refusals
    rw [hexpand] at h
    simp only [run_andThen] at h
    have hnot := (hsend sent.1 sent.2 s).bind hread failure h
    rw [hrefusal] at hnot
    cases hnot

theorem Session.refusesFirst_exchange {send : String → List Value → Session (Except Failure α)}
    (hsend : ∀ sql values s, Unrefused (run answer (send sql values) s).1)
    {read : α → Except Failure β} (hread : ∀ a, Unrefused (read a)) (dialect : Dialect)
    (sql : String) (params : Params) :
    RefusesFirst answer id (exchange send dialect sql params read) :=
  fun _ _ h hrefusal => (refused_exchange hsend hread dialect sql params h hrefusal).1

end

/-! ### Operations -/

/-- The rules of all fields hold, transient ones included. -/
def Record.KeepsRules {e : Entity} (book : Rulebook) (r : Record e) : Prop :=
  ∀ i rules, (e.field i).rules = some rules → book.check rules (r.value i) = none

namespace Context
variable {e : Entity} {ctx : Context} {current requested : Record e}

/-- A record that is found valid keeps its rules. -/
theorem keepsRules_of_validate (h : ctx.validate requested = .ok ()) :
    requested.KeepsRules ctx.rulebook := by
  rw [validate] at h
  split at h
  · rename_i hempty
    -- every rule that is broken would have left an entry
    have hnone := NameMap.eq_nil_of_isEmpty_ofList hempty
    intro i rules hrules
    have hi : i ∈ e.positions := List.mem_finRange i
    have hitem := List.filterMap_eq_nil_iff.1 hnone i hi
    cases hcheck : ctx.rulebook.check rules (requested.value i) with
    | none => rfl
    | some message =>
      simp only [hrules, hcheck, Option.bind_eq_bind, Option.bind_some] at hitem
      cases hitem
  · cases h

section
variable {σ : Type} {answer : Answerer Statement Statement.Answer σ} {s : σ} {failure : Failure}
  (hanswer : FailsOfItself answer)

include hanswer

theorem refused_sendInsert {changeset : Changeset}
    (h : (run answer (ctx.sendInsert e changeset) s).1 = .error failure)
    (hrefusal : failure.isRefusal = true) :
    asked answer (ctx.sendInsert e changeset) s = [] ∧ ∃ name, failure = .missingParam name := by
  rw [sendInsert] at h ⊢
  split at h
  · exact Session.refused_exchange (Session.unrefused_fetch hanswer) unrefused_insertedRows _ _ _ h
      hrefusal
  · exact Session.refused_exchange (Session.unrefused_execute hanswer) (fun _ => .ok _) _ _ _ h
      hrefusal

theorem refused_sendUpdate {changeset : Changeset} {column : String} {id : Value}
    (h : (run answer (ctx.sendUpdate e changeset column id) s).1 = .error failure)
    (hrefusal : failure.isRefusal = true) :
    asked answer (ctx.sendUpdate e changeset column id) s = [] ∧
      ∃ name, failure = .missingParam name := by
  refine Session.refused_exchange (Session.unrefused_execute hanswer) (fun done => ?_) _ _ _ h
    hrefusal
  split
  · exact .notFound
  · exact .ok ()

/-- An insert that is refused has asked nothing, and has left the record as it stands unless a
parameter is missing. -/
theorem refused_insert
    (h : (run answer (ctx.insert current requested) s).1.result = .error failure)
    (hrefusal : failure.isRefusal = true) :
    asked answer (ctx.insert current requested) s = [] ∧
      ((∃ name, failure = .missingParam name) ∨
        (run answer (ctx.insert current requested) s).1.current = current) := by
  cases hvalid : ctx.validate requested with
  | error failure' =>
    rw [insert_of_not_valid hvalid]
    exact ⟨rfl, .inr rfl⟩
  | ok valid =>
    by_cases hnone : Record.contributing .insert current requested = []
    · rw [insert_of_contributing_eq_nil hvalid hnone]
      exact ⟨rfl, .inr rfl⟩
    · rw [insert_of_valid hvalid hnone, run_bind, run, result_insertEnd] at h
      obtain ⟨hasked, hmissing⟩ := refused_sendInsert hanswer h hrefusal
      rw [insert_of_valid hvalid hnone, asked_bind, hasked]
      exact ⟨rfl, .inl hmissing⟩

/-- The same of an update. -/
theorem refused_update
    (h : (run answer (ctx.update current requested) s).1.result = .error failure)
    (hrefusal : failure.isRefusal = true) :
    asked answer (ctx.update current requested) s = [] ∧
      ((∃ name, failure = .missingParam name) ∨
        (run answer (ctx.update current requested) s).1.current = current) := by
  cases hkey : e.identity? with
  | none =>
    rw [update_of_identity?_eq_none hkey]
    exact ⟨rfl, .inr rfl⟩
  | some key =>
    cases hid : (current.value key).isBlank with
    | true =>
      rw [update_of_isBlank hkey hid]
      exact ⟨rfl, .inr rfl⟩
    | false =>
      by_cases hnone : Record.contributing .update current requested = []
      · rw [update_of_contributing_eq_nil hkey hid hnone]
        exact ⟨rfl, .inr rfl⟩
      · rw [update_of_contributing_ne_nil hkey hid hnone, run_bind] at h
        have hsent : (run answer (ctx.sendUpdate e (Record.changeset .update current requested)
            (e.columnOf key) (current.value key)) s).1 = .error failure := by
          generalize (run answer (ctx.sendUpdate e _ _ _) s).1 = sent at h ⊢
          cases sent with
          | error failure' => exact congrArg Except.error (Except.error.inj h)
          | ok done => cases h
        obtain ⟨hasked, hmissing⟩ := refused_sendUpdate hanswer hsent hrefusal
        rw [update_of_contributing_ne_nil hkey hid hnone, asked_bind, hasked]
        exact ⟨rfl, .inl hmissing⟩

theorem refusesFirst_query (sql : String) (params : Params) :
    RefusesFirst answer id (ctx.query sql params) :=
  Session.refusesFirst_exchange (Session.unrefused_fetch hanswer) Rows.unrefused_ofAnswer _ _ _

theorem refusesFirst_queryRow (sql : String) (params : Params) :
    RefusesFirst answer id (ctx.queryRow sql params) :=
  Session.refusesFirst_exchange (Session.unrefused_fetch hanswer) Rows.unrefused_firstRow _ _ _

theorem refusesFirst_execute (sql : String) (params : Params) :
    RefusesFirst answer id (ctx.execute sql params) :=
  Session.refusesFirst_exchange (Session.unrefused_execute hanswer) (fun _ => .ok _) _ _ _

theorem refusesFirst_queryRecords (e : Entity) (sql : String) (params : Params) :
    RefusesFirst answer id (ctx.queryRecords e sql params) :=
  Session.refusesFirst_exchange (Session.unrefused_fetch hanswer) (.mapM (Row.unrefused_scan e)) _ _
    _

theorem refusesFirst_queryRecord (e : Entity) (sql : String) (params : Params) :
    RefusesFirst answer id (ctx.queryRecord e sql params) := by
  refine Session.refusesFirst_exchange (Session.unrefused_fetch hanswer) (fun rows => ?_) _ _ _
  split
  · exact Row.unrefused_scan e _
  · exact .notFound

theorem refusesFirst_delete (e : Entity) (key : Int64) :
    RefusesFirst answer id (ctx.delete e key) := by
  rw [delete]
  split
  · exact .done id _
  · refine Session.refusesFirst_exchange (Session.unrefused_execute hanswer) (fun done => ?_) _ _ _
    split
    · exact .notFound
    · exact .ok ()

end

/-- An insert that asks anything is of a record that keeps its rules. -/
theorem keepsRules_of_asked {σ : Type} {answer : Answerer Statement Statement.Answer σ} {s : σ}
    (h : asked answer (ctx.insert current requested) s ≠ []) :
    requested.KeepsRules ctx.rulebook := by
  cases hvalid : ctx.validate requested with
  | error failure =>
    rw [insert_of_not_valid hvalid] at h
    exact absurd rfl h
  | ok valid => exact keepsRules_of_validate hvalid

/-- **What is refused is refused before it is asked.**  On a backend that fails of itself or not at
all, an operation that ends in a refusal has asked nothing.  Broken rules and an empty changeset
leave the record as it stands, and so does an update without a key.  Only a record that keeps all
its rules is ever inserted. -/
theorem refused_before_asking (ctx : Context) {σ : Type}
    {answer : Answerer Statement Statement.Answer σ} (hanswer : FailsOfItself answer) :
    (∀ sql params,
      RefusesFirst answer id (ctx.query sql params) ∧
      RefusesFirst answer id (ctx.queryRow sql params) ∧
      RefusesFirst answer id (ctx.execute sql params)) ∧
    ∀ e : Entity,
      (∀ sql params,
        RefusesFirst answer id (ctx.queryRecords e sql params) ∧
        RefusesFirst answer id (ctx.queryRecord e sql params)) ∧
      (∀ key, RefusesFirst answer id (ctx.delete e key)) ∧
      ∀ current requested : Record e,
        RefusesFirst answer Written.result (ctx.insert current requested) ∧
        RefusesFirst answer Written.result (ctx.update current requested) ∧
        ∀ s,
          let inserted := (run answer (ctx.insert current requested) s).1
          let updated := (run answer (ctx.update current requested) s).1
          (∀ errors, inserted.result = .error (.validation errors) → inserted.current = current) ∧
          (∀ table, inserted.result = .error (.emptyChangeset table) →
            inserted.current = current) ∧
          (∀ table, updated.result = .error (.missingIdentity table) →
            updated.current = current) ∧
          (asked answer (ctx.insert current requested) s ≠ [] →
            requested.KeepsRules ctx.rulebook) := by
  refine ⟨fun sql params => ⟨refusesFirst_query hanswer sql params,
    refusesFirst_queryRow hanswer sql params, refusesFirst_execute hanswer sql params⟩, fun e => ?_⟩
  refine ⟨fun sql params => ⟨refusesFirst_queryRecords hanswer e sql params,
    refusesFirst_queryRecord hanswer e sql params⟩, refusesFirst_delete hanswer e,
    fun current requested => ?_⟩
  refine ⟨fun s failure h hrefusal => (refused_insert hanswer h hrefusal).1,
    fun s failure h hrefusal => (refused_update hanswer h hrefusal).1, fun s => ?_⟩
  -- none of the three is a parameter that is missing
  refine ⟨fun errors h => ?_, fun table h => ?_, fun table h => ?_, keepsRules_of_asked⟩
  · exact (refused_insert hanswer h rfl).2.resolve_left fun ⟨_, hname⟩ => by cases hname
  · exact (refused_insert hanswer h rfl).2.resolve_left fun ⟨_, hname⟩ => by cases hname
  · exact (refused_update hanswer h rfl).2.resolve_left fun ⟨_, hname⟩ => by cases hname

end Context

/-! ### An account without a password -/

section
open Catalog

/-- A backend that never answers in time. -/
def overdue : Answerer Statement Statement.Answer Unit
  | .fetch _ _,   () => (.error (.timeout ⟨1, 0⟩), ())
  | .execute _ _, () => (.error (.timeout ⟨1, 0⟩), ())

theorem failsOfItself_overdue : FailsOfItself overdue := by
  intro q s failure h
  cases q with
  | fetch sql values =>
    cases h
    rfl
  | execute sql values =>
    cases h
    rfl

def accounts : Context :=
  ⟨.postgres, .builtin⟩

def formerAccount : Record user :=
  (Record.empty user).put "username" (.text "bob")

/-- An account that is asked for without a password. -/
def barredAccount : Record user :=
  newUser "ada" "a@b.io" default

def fullAccount : Record user :=
  barredAccount.put "password" (.text "open sesame")

/-- The plain password is not stored, yet an account without one is refused; one that has it keeps
its rules, and is sent. -/
theorem account_without_password_refused :
    (run overdue (accounts.insert formerAccount barredAccount) ()).1.result =
        .error (.validation ((∅ : FieldErrors).insert "password" "required")) ∧
      asked overdue (accounts.insert formerAccount barredAccount) () = [] ∧
      (run overdue (accounts.insert formerAccount barredAccount) ()).1.current = formerAccount ∧
      asked overdue (accounts.insert formerAccount fullAccount) () ≠ [] ∧
      fullAccount.KeepsRules accounts.rulebook := by
  have hrefused : (run overdue (accounts.insert formerAccount barredAccount) ()).1.result =
      .error (.validation ((∅ : FieldErrors).insert "password" "required")) := by
    decide +kernel
  have hsent : asked overdue (accounts.insert formerAccount fullAccount) () ≠ [] := by
    decide +kernel
  obtain ⟨-, h⟩ := Context.refused_before_asking accounts failsOfItself_overdue
  obtain ⟨-, -, h⟩ := h user
  obtain ⟨hfirst, -, hcurrent⟩ := h formerAccount barredAccount
  obtain ⟨-, -, hcomplete⟩ := h formerAccount fullAccount
  obtain ⟨hkept, -⟩ := hcurrent ()
  obtain ⟨-, -, -, hkeeps⟩ := hcomplete ()
  exact ⟨hrefused, hfirst () _ hrefused rfl, hkept _ hrefused, hsent, hkeeps hsent⟩

end

end RecordLayer
