import RecordLayer.Proofs.Writing
import RecordLayer.Store.Connection
import RecordLayer.Transaction

/-!
# Transactions are atomic

A transaction asks for its opening, sends what its session sends, and asks for one end: a commit if
the session ended well and a rollback if it did not.  On a backend whose openings, commits and
rollbacks do what they are called for (`Transactional`) the store is afterwards as it was, or as the
statements that were carried out have left it, one after another (`Work.transaction_atomic`).

The session may be any: it may go on after a statement that failed, and end well or not whatever
became of its statements.  What it leaves is followed statement by statement
(`Transactional.follow`).  A connection to the project's own store is such a backend
(`Store.Connection.transactional`).
-/

namespace RecordLayer
open Dialogue

/-! ### Sessions as work -/

namespace Dialogue
variable {Q Q' : Type} {A : Q → Type} {A' : Q' → Type} {α σ : Type} (word : Q → Q')
  (back : (q : Q) → A' (word q) → A q) (answer : Answerer Q' A' σ)

theorem run_translate (d : Dialogue Q A α) (s : σ) : run answer (translate word back d) s =
    run (fun q s => (back q (answer (word q) s).1, (answer (word q) s).2)) d s := by
  induction d generalizing s with
  | done a => rfl
  | ask q next ih => exact ih _ _

theorem asked_translate (d : Dialogue Q A α) (s : σ) : asked answer (translate word back d) s =
    (asked (fun q s => (back q (answer (word q) s).1, (answer (word q) s).2)) d s).map word := by
  induction d generalizing s with
  | done a => rfl
  | ask q next ih => exact congrArg (word q :: ·) (ih _ _)

end Dialogue

section
variable {σ α : Type}

/-- A backend as it answers the statements of a session. -/
def Work.onStatements (answer : Answerer Request Request.Answer σ) :
    Answerer Statement Statement.Answer σ :=
  fun q s => answer (.statement q) s

/-- The statements that a session sends, each with whether it was carried out. -/
def Session.sent (answer : Answerer Statement Statement.Answer σ) :
    Session α → σ → List (Statement × Bool)
  | .done _,     _ => []
  | .ask q next, s =>
    (q, q.succeeded (answer q s).1) :: sent answer (next (answer q s).1) (answer q s).2

theorem Session.map_sent (answer : Answerer Statement Statement.Answer σ) (session : Session α)
    (s : σ) : (sent answer session s).map (·.1) = asked answer session s := by
  induction session generalizing s with
  | done a => rfl
  | ask q next ih => exact congrArg (q :: ·) (ih _ _)

/-- What a transaction ends with. -/
def Work.ending : Except Failure α → Request
  | .ok _    => .commit
  | .error _ => .rollback

variable {answer : Answerer Request Request.Answer σ} {session : Session (Except Failure α)}
  {s t u w : σ} {outcome r : Except Failure α} {failure : Failure} {x : Except Failure Unit}

theorem Work.run_ofSession (session : Session α) (s : σ) :
    run answer (ofSession session) s = run (onStatements answer) session s :=
  run_translate _ _ _ _ _

/-! ### The requests of a transaction -/

namespace Work

theorem run_transaction_of_opening_error (hopen : answer .opening s = (.error failure, t)) :
    run answer (transaction session) s = (.error failure, t) ∧
      asked answer (transaction session) s = [.opening] := by
  rw [transaction, run, asked, hopen]
  exact ⟨rfl, rfl⟩

theorem run_transaction_of_opening_ok (hopen : answer .opening s = (.ok (), t))
    (hsession : run (onStatements answer) session t = (outcome, w)) :
    run answer (transaction session) s = run answer (close outcome) w := by
  rw [transaction, run, hopen]
  change run answer ((ofSession session).bind close) t = _
  rw [run_bind, run_ofSession, hsession]

theorem asked_close (outcome : Except Failure α) (w : σ) :
    asked answer (close outcome) w = [ending outcome] := by
  cases outcome with
  | error failure => rfl
  | ok a =>
    rw [close, asked, ending]
    cases (answer .commit w).1 with
    | error failure => rfl
    | ok x => rfl

/-- One end is asked for, behind the statements of the session. -/
theorem asked_transaction (hopen : answer .opening s = (.ok (), t))
    (hsession : run (onStatements answer) session t = (outcome, w)) :
    asked answer (transaction session) s =
      .opening :: (Session.sent (onStatements answer) session t).map (.statement ·.1) ++
        [ending outcome] := by
  have hsent : asked answer (ofSession session) t =
      (Session.sent (onStatements answer) session t).map (.statement ·.1) := by
    refine (asked_translate _ _ _ _ _).trans ?_
    rw [← Function.comp_def Request.statement, ← List.map_map, Session.map_sent]
    rfl
  rw [transaction, asked, hopen]
  change .opening :: asked answer ((ofSession session).bind close) t = _
  rw [asked_bind, run_ofSession, hsession, asked_close, hsent]
  rfl

theorem run_close_error (failure : Failure) (w : σ) :
    run answer (close (.error failure : Except Failure α)) w =
      (.error failure, (answer .rollback w).2) :=
  rfl

theorem run_close_ok (a : α) (hcommit : answer .commit w = (x, u)) :
    run answer (close (.ok a)) w = (x.map fun _ => a, u) := by
  rw [close, run, hcommit]
  cases x with
  | error failure => rfl
  | ok x => rfl

/-- A transaction that ends well was opened, its session ended well, and it was committed. -/
theorem run_transaction_ok {a : α} (hrun : run answer (transaction session) s = (.ok a, u)) :
    ∃ t w, answer .opening s = (.ok (), t) ∧ run (onStatements answer) session t = (.ok a, w) ∧
      answer .commit w = (.ok (), u) := by
  rcases hopen : answer .opening s with ⟨failure | x, t⟩
  · rw [(run_transaction_of_opening_error hopen).1] at hrun
    cases hrun
  · rcases hsession : run (onStatements answer) session t with ⟨outcome, w⟩
    rw [run_transaction_of_opening_ok hopen hsession] at hrun
    cases outcome with
    | error failure => cases hrun
    | ok b =>
      rcases hcommit : answer .commit w with ⟨x, v⟩
      rw [run_close_ok b hcommit] at hrun
      cases x with
      | error failure => cases hrun
      | ok x =>
        cases hrun
        exact ⟨t, w, rfl, hsession, hcommit⟩

end Work

end

/-! ### Stores behind backends -/

/-- Effects that lead from one store to another, one after another. -/
inductive Effects {E D : Type} (effect : E → D → D → Prop) : List E → D → D → Prop
  | nil (db : D) : Effects effect [] db db
  | cons {e : E} {es : List E} {db db' db'' : D} (head : effect e db db')
      (tail : Effects effect es db' db'') : Effects effect (e :: es) db db''

theorem Effects.append {E D : Type} {effect : E → D → D → Prop} {es es' : List E} {db db' db'' : D}
    (h : Effects effect es db db') (h' : Effects effect es' db' db'') :
    Effects effect (es ++ es') db db'' := by
  induction h with
  | nil => exact h'
  | cons head _ ih => exact .cons head (ih h')

/-- A backend seen from one connection: the store that it keeps, and what its transactions do. -/
structure Transactional {σ : Type} (answer : Answerer Request Request.Answer σ) (D E : Type) where
  /-- The store as the connection sees it. -/
  current : σ → D
  /-- The store as it was when the transaction was opened, if one is open. -/
  saved : σ → Option D
  /-- The statements that a text holds with its values, most often one. -/
  statements : Statement → List E
  effect : E → D → D → Prop
  /-- The statement opens or ends transactions itself. -/
  controls : E → Prop
  opening_ok : ∀ {s s'}, saved s = none → answer .opening s = (.ok (), s') →
    current s' = current s ∧ saved s' = some (current s)
  /-- The statements of a text are carried out up to the first that fails, and what has been carried
  out stands.  This leaves out PostgreSQL where a session goes on after a statement that failed: the
  transaction is given up then, and its commit is answered well but rolls back. -/
  statement : ∀ {s s' db q x}, saved s = some db → (∀ e ∈ statements q, ¬ controls e) →
    answer (.statement q) s = (x, s') → saved s' = some db ∧ ∃ done, done <+: statements q ∧
      (q.succeeded x = true ↔ done = statements q) ∧ Effects effect done (current s) (current s')
  commit_ok : ∀ {s s' db}, saved s = some db → answer .commit s = (.ok (), s') →
    current s' = current s
  rollback_ok : ∀ {s s' db}, saved s = some db → answer .rollback s = (.ok (), s') →
    current s' = db

namespace Transactional
variable {σ α D E : Type} {answer : Answerer Request Request.Answer σ}
  (v : Transactional answer D E)

/-- What was carried out of the statements sent: all of a text that succeeded, and what goes before
the statement that failed of a text that did not. -/
def CarriedOut (sent : List (Statement × Bool)) (done : List E) : Prop :=
  ∃ parts, done = parts.flatten ∧ sent.Forall₂ (fun p part =>
    part <+: v.statements p.1 ∧ (p.2 = true ↔ part = v.statements p.1)) parts

/-- A session inside a transaction leaves what its statements make of the store, one after another,
and the transaction is still open. -/
theorem follow {session : Session α} {s s' : σ} {db : D} {r : α} (hs : v.saved s = some db)
    (hcontrols : ∀ p ∈ session.sent (Work.onStatements answer) s, ∀ e ∈ v.statements p.1,
      ¬ v.controls e)
    (hrun : run (Work.onStatements answer) session s = (r, s')) :
    v.saved s' = some db ∧ ∃ done, v.CarriedOut (session.sent (Work.onStatements answer) s) done ∧
      Effects v.effect done (v.current s) (v.current s') := by
  -- on the session: each answer leaves the transaction open, whether its text failed or not
  induction session generalizing s with
  | done a =>
    cases hrun
    exact ⟨hs, [], ⟨[], rfl, .nil⟩, .nil _⟩
  | ask q next ih =>
    rcases hanswer : Work.onStatements answer q s with ⟨x, t⟩
    rw [Session.sent, hanswer] at hcontrols ⊢
    rw [run, hanswer] at hrun
    obtain ⟨hq, hrest⟩ := List.forall_mem_cons.1 hcontrols
    obtain ⟨ht, part, hpart, hsucceeded, heffects⟩ := v.statement hs hq hanswer
    obtain ⟨hs', done, ⟨parts, rfl, hparts⟩, heffects'⟩ := ih x ht hrest hrun
    exact ⟨hs', part ++ parts.flatten, ⟨part :: parts, rfl, .cons ⟨hpart, hsucceeded⟩ hparts⟩,
      heffects.append heffects'⟩

/-- Of texts of one statement each, those are carried out that succeed. -/
theorem CarriedOut.eq_of_single {v : Transactional answer D E} {sent : List (Statement × Bool)}
    {done : List E} (h : v.CarriedOut sent done)
    (hsingle : ∀ p ∈ sent, ∃ e, v.statements p.1 = [e]) :
    done = (sent.filter (·.2)).flatMap (v.statements ·.1) := by
  obtain ⟨parts, rfl, hparts⟩ := h
  induction hparts with
  | nil => rfl
  | @cons p part sent parts hp _ ih =>
    obtain ⟨⟨e, he⟩, hrest⟩ := List.forall_mem_cons.1 hsingle
    obtain ⟨hinitial, hsucceeded⟩ := hp
    rw [List.flatten_cons, ih hrest]
    cases hok : p.2 with
    | true => rw [List.filter_cons_of_pos hok, List.flatMap_cons, hsucceeded.1 hok]
    | false =>
      rw [he] at hinitial hsucceeded
      have hnil : part = [] := by
        rcases List.prefix_cons_iff.1 hinitial with hnil | ⟨more, rfl, hmore⟩
        · exact hnil
        · rw [List.prefix_nil.1 hmore] at hsucceeded
          exact absurd (hok.symm.trans (hsucceeded.2 rfl)) Bool.false_ne_true
      rw [List.filter_cons_of_neg (by rw [hok]; exact Bool.false_ne_true), hnil, List.nil_append]

end Transactional

/-- **A transaction is atomic**, whatever its session does.  If it cannot be opened, nothing else is
asked for and that failure is returned.  If it can, one end is asked for behind the statements of
the session, a commit if it ended well and a rollback if it did not.  A session's own failure is
returned whatever becomes of the rollback, which leaves the store as it was; if the session ended
well, its result is returned once it is committed, and the store is what the statements carried out
have made of it. -/
theorem Work.transaction_atomic {σ α D E : Type} {answer : Answerer Request Request.Answer σ}
    (v : Transactional answer D E) (session : Session (Except Failure α)) (s : σ) :
    let ended := run answer (transaction session) s
    (∀ failure t, answer .opening s = (.error failure, t) →
      asked answer (transaction session) s = [.opening] ∧ ended = (.error failure, t)) ∧
    ∀ t outcome w, answer .opening s = (.ok (), t) →
      run (onStatements answer) session t = (outcome, w) →
      let sent := session.sent (onStatements answer) t
      let plain := v.saved s = none ∧ ∀ p ∈ sent, ∀ e ∈ v.statements p.1, ¬ v.controls e
      asked answer (transaction session) s =
        .opening :: sent.map (.statement ·.1) ++ [ending outcome] ∧
      (∀ failure, outcome = .error failure → ended.1 = .error failure ∧
        (plain → (answer .rollback w).1 = .ok () → v.current ended.2 = v.current s)) ∧
      ∀ a, outcome = .ok a →
        (∀ failure, (answer .commit w).1 = .error failure → ended.1 = .error failure) ∧
        ((answer .commit w).1 = .ok () → ended.1 = .ok a ∧ (plain → ∃ done,
          v.CarriedOut sent done ∧ Effects v.effect done (v.current s) (v.current ended.2))) := by
  intro ended
  refine ⟨fun failure t hopen => (run_transaction_of_opening_error hopen).symm, ?_⟩
  intro t outcome w hopen hsession sent plain
  have hended : ended = run answer (close outcome) w :=
    run_transaction_of_opening_ok hopen hsession
  have hinside : plain → v.saved w = some (v.current s) ∧ ∃ done, v.CarriedOut sent done ∧
      Effects v.effect done (v.current s) (v.current w) := by
    rintro ⟨hs, hcontrols⟩
    obtain ⟨hcurrent, hsaved⟩ := v.opening_ok hs hopen
    rw [← hcurrent] at hsaved ⊢
    exact v.follow hsaved hcontrols hsession
  refine ⟨asked_transaction hopen hsession, ?_, ?_⟩
  · rintro failure rfl
    rw [hended, run_close_error]
    exact ⟨rfl, fun hplain hback => v.rollback_ok (hinside hplain).1 (Prod.ext hback rfl)⟩
  · rintro a rfl
    rcases hcommit : answer .commit w with ⟨failure | x, u⟩
    · rw [hended, run_close_ok a hcommit]
      refine ⟨fun failure' h => ?_, fun h => by cases h⟩
      cases h
      rfl
    · rw [hended, run_close_ok a hcommit]
      refine ⟨(fun _ h => by cases h), fun _ => ⟨rfl, fun hplain => ?_⟩⟩
      obtain ⟨hsaved, done, hdone, heffects⟩ := hinside hplain
      refine ⟨done, hdone, ?_⟩
      rw [v.commit_ok hsaved hcommit]
      exact heffects

/-! ### Connections to a store -/

namespace Store.Connection

/-- A statement of a text, with the values of the text. -/
abbrev Part := List Datum × List Lexed

/-- What a statement makes of a store when it is carried out. -/
def Leaves (part : Part) (db db' : Store) : Prop :=
  ∃ command effect, Command.ofLexemes? part.2 = some command ∧
    db.execute part.1 command = .ok effect ∧ db' = effect.store

theorem afterFailure_eq (c : Connection) (command : Command) (failure : Failure) :
    ∃ n, c.afterFailure command failure = { c with lastChanged := n } := by
  rw [afterFailure]
  split
  · exact ⟨0, rfl⟩
  · exact ⟨c.lastChanged, rfl⟩

/-- The statements of a text are carried out up to the first that fails. -/
theorem carryOut_effects {values : List Datum} {texts : List (List Lexed)} {a left : Answer}
    {failed : Option Failure} (h : carryOut values texts a = (left, failed)) :
    left.connection.saved = a.connection.saved ∧ left.connection.closed = a.connection.closed ∧
      ∃ done, done <+: texts ∧ (failed = none ↔ done = texts) ∧
        Effects Leaves (done.map (values, ·)) a.connection.store left.connection.store := by
  induction texts generalizing a with
  | nil =>
    cases h
    exact ⟨rfl, rfl, [], List.prefix_rfl, ⟨fun _ => rfl, fun _ => rfl⟩, .nil _⟩
  | cons text rest ih =>
    have hnone : ∀ {failure : Failure},
        some failure = none ↔ ([] : List (List Lexed)) = text :: rest :=
      ⟨(fun h => by cases h), fun h => by cases h⟩
    rw [carryOut] at h
    cases hcommand : Command.ofLexemes? text with
    | none =>
      simp only [hcommand] at h
      cases h
      exact ⟨rfl, rfl, [], List.nil_prefix, hnone, .nil _⟩
    | some command =>
      cases hdone : a.connection.store.execute values command with
      | error failure =>
        obtain ⟨n, hafter⟩ := a.connection.afterFailure_eq command failure
        simp only [hcommand, hdone, hafter] at h
        cases h
        exact ⟨rfl, rfl, [], List.nil_prefix, hnone, .nil _⟩
      | ok effect =>
        simp only [hcommand, hdone] at h
        obtain ⟨hsaved, hclosed, done, hinitial, hfailed, heffects⟩ := ih h
        refine ⟨hsaved, hclosed, text :: done, List.cons_prefix_cons.2 ⟨rfl, hinitial⟩, ?_,
          .cons ⟨command, effect, hcommand, hdone, rfl⟩ heffects⟩
        rw [List.cons_eq_cons, and_iff_right rfl]
        exact hfailed

theorem toBool_outcome {α : Type} (a : α) (failed : Option Failure) :
    (outcome a failed).toBool = true ↔ failed = none := by
  cases failed with
  | none => exact ⟨fun _ => rfl, fun _ => rfl⟩
  | some failure => exact ⟨(fun h => by cases h), fun h => by cases h⟩

/-- The parts of a statement's text. -/
def parts : Statement → List Part
  | .fetch sql values | .execute sql values =>
    (commands (lexed sql)).map (values.map Datum.ofValue, ·)

/-- A text's statements are carried out up to the first that fails; the transaction stays. -/
theorem answerStatement_effects {q : Statement} {c c' : Connection} {x : q.Answer}
    (hopen : c.closed = false) (h : answerStatement q c = (x, c')) :
    c'.saved = c.saved ∧ c'.closed = c.closed ∧ ∃ done, done <+: parts q ∧
      (q.succeeded x = true ↔ done = parts q) ∧ Effects Leaves done c.store c'.store := by
  have hsend : ∀ {sql values left failed}, c.send sql values = (left, failed) →
      left.connection.saved = c.saved ∧ left.connection.closed = c.closed ∧
        ∃ done, done <+: parts (.execute sql values) ∧
          (failed = none ↔ done = parts (.execute sql values)) ∧
          Effects Leaves done c.store left.connection.store := by
    intro sql values left failed h
    rw [send, hopen, if_neg Bool.false_ne_true] at h
    obtain ⟨hsaved, hclosed, done, hinitial, hfailed, heffects⟩ := carryOut_effects h
    refine ⟨hsaved, hclosed, _, hinitial.map _, hfailed.trans ?_, heffects⟩
    exact (List.map_injective_iff.2 (fun _ _ h => (Prod.mk.inj h).2)).eq_iff.symm
  cases q with
  | fetch sql values =>
    rcases hsent : c.send sql values with ⟨left, failed⟩
    obtain ⟨hsaved, hclosed, done, hinitial, hfailed, heffects⟩ := hsend hsent
    simp only [answerStatement, hsent] at h
    cases h
    exact ⟨hsaved, hclosed, done, hinitial, (toBool_outcome _ failed).trans hfailed, heffects⟩
  | execute sql values =>
    rcases hsent : c.send sql values with ⟨left, failed⟩
    obtain ⟨hsaved, hclosed, done, hinitial, hfailed, heffects⟩ := hsend hsent
    simp only [answerStatement, hsent] at h
    cases h
    exact ⟨hsaved, hclosed, done, hinitial, (toBool_outcome _ failed).trans hfailed, heffects⟩

/-- Connections are transactional: no statement that the store knows opens or ends a
transaction. -/
def transactional : Transactional answer Store Part where
  current := store
  saved c := if c.closed then none else c.saved
  statements := parts
  effect := Leaves
  controls _ := False
  opening_ok := by
    intro c c' _ h
    rw [answer] at h
    cases hclosed : c.closed with
    | true =>
      rw [hclosed] at h
      cases h
    | false =>
      rw [hclosed] at h
      cases h
      exact ⟨rfl, if_neg Bool.false_ne_true⟩
  statement := by
    intro c c' db q x hsaved _ h
    cases hclosed : c.closed with
    | true =>
      rw [hclosed] at hsaved
      cases hsaved
    | false =>
      obtain ⟨hsaved', hclosed', heffects⟩ := answerStatement_effects hclosed h
      rw [hsaved', hclosed']
      exact ⟨hsaved, heffects⟩
  commit_ok := by
    intro c c' db _ h
    cases h
    rfl
  rollback_ok := by
    intro c c' db hsaved h
    cases h
    cases hclosed : c.closed with
    | true =>
      rw [hclosed] at hsaved
      cases hsaved
    | false =>
      rw [hclosed] at hsaved
      exact congrArg (Option.getD · c.store) hsaved

/-- A connection to a store with an empty table of jobs. -/
def desk : Connection :=
  (run answerStatement (Session.execute
    "CREATE TABLE jobs (id INTEGER PRIMARY KEY AUTOINCREMENT, label TEXT)" []) fresh).2

/-- Two jobs are queued, and one where there is no table; the session ends as it is told to. -/
def queueing (outcome : Except Failure Unit) : Session (Except Failure Unit) := do
  let _ ← Session.execute "INSERT INTO jobs (label) VALUES (?)" [.text "copy"]
  let _ ← Session.execute "INSERT INTO files (label) VALUES (?)" [.text "list"]
  let _ ← Session.execute "INSERT INTO jobs (label) VALUES (?)" [.text "move"]
  return outcome

/-- The session ends as it is told to whatever is answered. -/
theorem run_queueing {σ : Type} (answer : Answerer Statement Statement.Answer σ)
    (outcome : Except Failure Unit) (s : σ) :
    ∃ w, run answer (queueing outcome) s = (outcome, w) :=
  ⟨_, rfl⟩

/-- Each of its texts is of one statement. -/
theorem parts_queueing (outcome : Except Failure Unit) (c : Connection) :
    ∀ p ∈ (queueing outcome).sent answerStatement c, ∃ part, parts p.1 = [part] := by
  have hlength : ∀ q ∈ asked answerStatement (queueing outcome) c, (parts q).length = 1 := by
    change ∀ q ∈ [Statement.execute "INSERT INTO jobs (label) VALUES (?)" [.text "copy"],
      .execute "INSERT INTO files (label) VALUES (?)" [.text "list"],
      .execute "INSERT INTO jobs (label) VALUES (?)" [.text "move"]], (parts q).length = 1
    decide +kernel
  intro p hp
  rw [← Session.map_sent] at hlength
  exact List.length_eq_one_iff.1 (hlength p.1 (List.mem_map_of_mem hp))

theorem jobs_queued_together :
    let left := run answer (Work.transaction (queueing (.error .notFound))) desk
    let kept := run answer (Work.transaction (queueing (.ok ()))) desk
    let sent := (queueing (.ok ())).sent answerStatement { desk with saved := some desk.store }
    left.1 = .error .notFound ∧ left.2.store = desk.store ∧ kept.1 = .ok () ∧
      kept.2.store.tables.map (·.rows.length) = [2] ∧
      Effects Leaves ((sent.filter (·.2)).flatMap (parts ·.1)) desk.store kept.2.store := by
  have hrows : (run answer (Work.transaction (queueing (.ok ()))) desk).2.store.tables.map
      (·.rows.length) = [2] := by decide +kernel
  obtain ⟨hclosed, hsaved⟩ : desk.closed = false ∧ desk.saved = none := by decide +kernel
  obtain ⟨-, hleft⟩ := Work.transaction_atomic transactional (queueing (.error .notFound)) desk
  obtain ⟨-, hkept⟩ := Work.transaction_atomic transactional (queueing (.ok ())) desk
  -- from here on nothing is to be evaluated
  generalize desk = c at *
  have hopen : answer .opening c = (.ok (), { c with saved := some c.store }) := by
    rw [answer, if_neg (ne_true_of_eq_false hclosed)]
  have hnone : transactional.saved c = none := (if_neg (ne_true_of_eq_false hclosed)).trans hsaved
  obtain ⟨w, hw⟩ := run_queueing (Work.onStatements answer) (.error .notFound)
    { c with saved := some c.store }
  obtain ⟨w', hw'⟩ := run_queueing (Work.onStatements answer) (.ok ())
    { c with saved := some c.store }
  obtain ⟨hfailure, hback⟩ := (hleft _ _ _ hopen hw).2.1 .notFound rfl
  obtain ⟨hresult, hcarried⟩ := ((hkept _ _ _ hopen hw').2.2 () rfl).2 rfl
  obtain ⟨done, hdone, heffects⟩ := hcarried ⟨hnone, fun _ _ _ _ h => h⟩
  rw [hdone.eq_of_single (parts_queueing _ _)] at heffects
  exact ⟨hfailure, hback ⟨hnone, fun _ _ _ _ h => h⟩ rfl, hresult, hrows, heffects⟩

end Store.Connection

end RecordLayer
