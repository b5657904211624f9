import RecordLayer.Migration.Migrator
import RecordLayer.Proofs.Migration.Recording
import RecordLayer.Proofs.Transaction

/-!
# Migrations — Backends with transactions

What is asked of a backend so that an install can be followed: a transaction that is not committed
leaves nothing behind, a script's statement has an effect that it alone determines, and the tracking
table answers for the highest number recorded and takes another record (`Backend`).  When a request
fails, and what a statement that fails inside a transaction has done by then, is left open.

A session inside a transaction is followed by what it makes of the database if it ends well, and by
not ending the transaction (`Backend.Within`); the transaction around it either makes that of the
database or nothing (`Backend.run_transaction`).
-/

namespace RecordLayer.Migration
open Dialogue

/-! ### Databases -/

/-- A row of the tracking table. -/
structure Tracked where
  number : Int64
  fileName : String
  appliedAt : Option Instant
deriving DecidableEq

/-- A database as far as migrations go: what scripts have made of it, and the rows of the tracking
table if there is one. -/
structure Database (D : Type) where
  schema : D
  tracking : Option (List Tracked)
deriving DecidableEq

namespace Database
variable {D : Type}

/-- The database with one more row in the tracking table. -/
def record (db : Database D) (row : Tracked) : Database D :=
  { db with tracking := db.tracking.map (· ++ [row]) }

end Database

/-- The highest number of the rows; 0 if there are none. -/
def highestOf : List Tracked → Int64
  | []          => 0
  | [row]       => row.number
  | row :: rows => if row.number < highestOf rows then highestOf rows else row.number

theorem le_highestOf {records : List Tracked} {row : Tracked} (h : row ∈ records) :
    row.number ≤ highestOf records := by
  fun_induction highestOf records with
  | case1 => cases h
  | case2 first =>
    rw [List.mem_singleton.1 h]
    exact Int64.le_refl _
  | case3 first rest hne hlt ih =>
    rcases List.mem_cons.1 h with rfl | h
    · exact Int64.le_of_lt hlt
    · exact ih h
  | case4 first rest hne hnot ih =>
    rcases List.mem_cons.1 h with rfl | h
    · exact Int64.le_refl _
    · exact Int64.le_trans (ih h) (Int64.not_lt.1 hnot)

/-- The highest number is that of a row. -/
theorem exists_highestOf {records : List Tracked} (h : records ≠ []) :
    ∃ row ∈ records, highestOf records = row.number := by
  fun_induction highestOf records with
  | case1 => exact absurd rfl h
  | case2 first => exact ⟨first, List.mem_cons_self, rfl⟩
  | case3 first rest hne hlt ih =>
    obtain ⟨row, hrow, heq⟩ := ih hne
    exact ⟨row, List.mem_cons_of_mem _ hrow, heq⟩
  | case4 first rest hne hnot ih => exact ⟨first, List.mem_cons_self, rfl⟩

/-! ### Backends -/

/-- A backend whose transactions are atomic, seen from one connection. -/
structure Backend (dialect : Dialect) (D : Type) where
  State : Type
  answer : Answerer Request Request.Answer State
  /-- The database as the connection sees it. -/
  current : State → Database D
  /-- The database as it was when the transaction was opened, if one is open. -/
  saved : State → Option (Database D)
  /-- What a statement of a script makes of the database. -/
  effect : String → Database D → Database D
  /-- The statement opens or ends transactions. -/
  controls : String → Prop
  opening_ok : ∀ {s s'}, saved s = none → answer .opening s = (.ok (), s') →
    current s' = current s ∧ saved s' = some (current s)
  opening_error : ∀ {s s' failure}, saved s = none → answer .opening s = (.error failure, s') →
    current s' = current s ∧ saved s' = none
  commit_ok : ∀ {s s' db}, saved s = some db → answer .commit s = (.ok (), s') →
    current s' = current s ∧ saved s' = none
  /-- A commit that fails has left nothing behind.  This leaves out a commit that took effect and is
  reported to fail because its answer came too late. -/
  commit_error : ∀ {s s' db failure}, saved s = some db →
    answer .commit s = (.error failure, s') → current s' = db ∧ saved s' = none
  /-- The transaction is over even if the rollback is reported to fail. -/
  rollback : ∀ {s s' db x}, saved s = some db → answer .rollback s = (x, s') →
    current s' = db ∧ saved s' = none
  /-- A statement that fails may have done anything, but it does not end the transaction. -/
  script : ∀ {s s' db sql x}, saved s = some db → ¬ controls sql →
    answer (.statement (.execute sql [])) s = (x, s') →
    saved s' = some db ∧ ∀ done, x = .ok done → current s' = effect sql (current s)
  /-- A record that is written is the last row. -/
  record : ∀ {s s' db number fileName now x}, saved s = some db →
    answer (.statement (recordStatement dialect number fileName now)) s = (x, s') →
    saved s' = some db ∧ (Statement.succeeded _ x = true →
      current s' = (current s).record ⟨number, fileName, some now⟩)
  /-- The highest number is answered only if there is a tracking table. -/
  highest_ok : ∀ {s s' rows}, saved s = none →
    answer (.statement (.fetch Migrator.highestQuery [])) s = (.ok rows, s') →
    current s' = current s ∧ saved s' = none ∧ ∃ records column,
      (current s).tracking = some records ∧ rows = [[(column, .int (highestOf records))]]
  /-- A table is reported missing only if it is. -/
  highest_error : ∀ {s s' failure}, saved s = none →
    answer (.statement (.fetch Migrator.highestQuery [])) s = (.error failure, s') →
    current s' = current s ∧ saved s' = none ∧ ∀ error, failure = .database error →
      dialect.classify error = .relationNotFound → (current s).tracking = none

namespace Backend
variable {dialect : Dialect} {D : Type} (b : Backend dialect D) {α β : Type}

/-- The backend as it answers the statements of a session. -/
def onStatements : Answerer Statement Statement.Answer b.State :=
  fun q s => b.answer (.statement q) s

theorem run_ofSession (session : Session α) (s : b.State) :
    run b.answer (Work.ofSession session) s = run b.onStatements session s :=
  Work.run_ofSession session s

/-! ### Inside a transaction -/

/-- Inside a transaction the session does not end it, and if it ends well it makes of the database
what `post` says. -/
structure Within (session : Session (Except Failure α))
    (post : Database D → α → Database D → Prop) : Prop where
  follow : ∀ {s s' db r}, b.saved s = some db → run b.onStatements session s = (r, s') →
    b.saved s' = some db ∧ ∀ a, r = .ok a → post (b.current s) a (b.current s')

variable {b}

theorem within_ok (a : α) : b.Within (.done (.ok a)) fun db x db' => x = a ∧ db' = db := by
  refine ⟨fun {s s' db r} hs hrun => ?_⟩
  cases hrun
  exact ⟨hs, fun x hx => ⟨(Except.ok.inj hx).symm, rfl⟩⟩

theorem Within.mono {session : Session (Except Failure α)}
    {post post' : Database D → α → Database D → Prop} (h : b.Within session post)
    (hpost : ∀ db a db', post db a db' → post' db a db') : b.Within session post' := by
  refine ⟨fun {s s' db r} hs hrun => ?_⟩
  obtain ⟨hsaved, hok⟩ := h.follow hs hrun
  exact ⟨hsaved, fun a ha => hpost _ _ _ (hok a ha)⟩

/-- A session that goes on only if its first part ends well. -/
theorem Within.bind {first : Session (Except Failure α)}
    {rest : Except Failure α → Session (Except Failure β)}
    {post₁ : Database D → α → Database D → Prop} {post₂ : α → Database D → β → Database D → Prop}
    (hfirst : b.Within first post₁)
    (herror : ∀ failure, rest (.error failure) = .done (.error failure))
    (hrest : ∀ a, b.Within (rest (.ok a)) (post₂ a)) :
    b.Within (first >>= rest) fun db x db' => ∃ a mid, post₁ db a mid ∧ post₂ a mid x db' := by
  refine ⟨fun {s s' db r} hs hrun => ?_⟩
  rw [run_andThen] at hrun
  cases hmid : run b.onStatements first s with
  | mk r₁ t =>
    rw [hmid] at hrun
    obtain ⟨ht, hok⟩ := hfirst.follow hs hmid
    cases r₁ with
    | error failure =>
      rw [herror] at hrun
      cases hrun
      exact ⟨ht, fun x hx => by cases hx⟩
    | ok a =>
      obtain ⟨hs', hpost⟩ := (hrest a).follow ht hrun
      exact ⟨hs', fun x hx => ⟨a, b.current t, hok a rfl, hpost x hx⟩⟩

/-! ### A transaction -/

/-- A transaction is committed only if its session ended well. -/
theorem run_close {s s' : b.State} {db : Database D} (hs : b.saved s = some db)
    {outcome r : Except Failure α} (hrun : run b.answer (Work.close outcome) s = (r, s')) :
    b.saved s' = none ∧
      ((∃ failure, r = .error failure) ∧ b.current s' = db ∨
        ∃ a, outcome = .ok a ∧ r = .ok a ∧ b.current s' = b.current s) := by
  cases outcome with
  | error failure =>
    rw [Work.run_close_error] at hrun
    cases hrun
    obtain ⟨hcurrent, hsaved⟩ := b.rollback hs rfl
    exact ⟨hsaved, .inl ⟨⟨failure, rfl⟩, hcurrent⟩⟩
  | ok a =>
    rcases hcommit : b.answer .commit s with ⟨failure | x, t⟩
    · rw [Work.run_close_ok a hcommit] at hrun
      cases hrun
      obtain ⟨hcurrent, hsaved⟩ := b.commit_error hs hcommit
      exact ⟨hsaved, .inl ⟨⟨failure, rfl⟩, hcurrent⟩⟩
    · rw [Work.run_close_ok a hcommit] at hrun
      cases hrun
      obtain ⟨hcurrent, hsaved⟩ := b.commit_ok hs hcommit
      exact ⟨hsaved, .inr ⟨a, rfl, rfl, hcurrent⟩⟩

/-- **A transaction is atomic**: it makes of the database what its session does, or nothing. -/
theorem run_transaction {session : Session (Except Failure α)}
    {post : Database D → α → Database D → Prop} (h : b.Within session post) {s s' : b.State}
    (hs : b.saved s = none) {r : Except Failure α}
    (hrun : run b.answer (Work.transaction session) s = (r, s')) :
    b.saved s' = none ∧
      ((∃ failure, r = .error failure) ∧ b.current s' = b.current s ∨
        ∃ a, r = .ok a ∧ post (b.current s) a (b.current s')) := by
  rcases hopen : b.answer .opening s with ⟨failure | x, t⟩
  · rw [(Work.run_transaction_of_opening_error hopen).1] at hrun
    cases hrun
    obtain ⟨hcurrent, hsaved⟩ := b.opening_error hs hopen
    exact ⟨hsaved, .inl ⟨⟨failure, rfl⟩, hcurrent⟩⟩
  · obtain ⟨hcurrent, hsaved⟩ := b.opening_ok hs hopen
    rcases hsession : run b.onStatements session t with ⟨outcome, u⟩
    rw [Work.run_transaction_of_opening_ok hopen hsession] at hrun
    obtain ⟨hu, hpost⟩ := h.follow hsaved hsession
    obtain ⟨hs', hend⟩ := run_close hu hrun
    rcases hend with ⟨hr, hback⟩ | ⟨a, rfl, hr, hkept⟩
    · exact ⟨hs', .inl ⟨hr, hback⟩⟩
    · refine ⟨hs', .inr ⟨a, hr, ?_⟩⟩
      rw [hkept, ← hcurrent]
      exact hpost a rfl

end Backend

/-! ### A journal -/

/-- A database kept as the statements that scripts have sent, in order, and which of the next
statements of scripts fail. -/
structure Journal where
  database : Database (List String)
  saved : Option (Database (List String))
  mishaps : List Bool
deriving DecidableEq

namespace Journal

def createTracking : String :=
  "CREATE TABLE ra_migrations (id INTEGER PRIMARY KEY, number, name, applied_at)"

/-- The statement that creates the tracking table does so, all others are written down. -/
def effect (sql : String) (db : Database (List String)) : Database (List String) :=
  if sql = createTracking then { db with tracking := some [] }
  else { db with schema := db.schema ++ [sql] }

def missing : BackendError :=
  .reported ⟨some "1", "no such table: ra_migrations", .other, none⟩

/-- The row that the values of a record stand for. -/
def row? : List Value → Option Tracked
  | [.int number, .text fileName, .timestamp now] => some ⟨number, fileName, some now⟩
  | _ => none

/-- A fetch with the values of a row records it, any other asks for the highest number. -/
def answerStatement : Answerer Statement Statement.Answer Journal
  | .execute sql _, j =>
    if j.mishaps.head?.getD false then
      (.error (.database .workerCrashed), { j with mishaps := j.mishaps.tail })
    else
      (.ok ⟨0, none⟩,
        { j with database := effect sql j.database, mishaps := j.mishaps.tail })
  | .fetch _ values, j =>
    match j.database.tracking, row? values with
    | none, _ => (.error (.database missing), j)
    | some records, some row =>
      (.ok [[("id", .int (.ofNat records.length))]], { j with database := j.database.record row })
    | some records, none => (.ok [[("highest", .int (highestOf records))]], j)

def answer : Answerer Request Request.Answer Journal
  | .statement q, j => answerStatement q j
  | .opening,     j => (.ok (), { j with saved := some j.database })
  | .commit,      j => (.ok (), { j with saved := none })
  | .rollback,    j => (.ok (), { j with database := j.saved.getD j.database, saved := none })

end Journal

open Journal in
/-- Journals are a backend. -/
def journals : Backend .sqlite (List String) where
  State := Journal
  answer := answer
  current := database
  saved := saved
  effect := effect
  controls sql := sql ∈ ["BEGIN", "COMMIT", "ROLLBACK"]
  opening_ok := by
    intro s s' hs hanswer
    cases hanswer
    exact ⟨rfl, rfl⟩
  opening_error := by
    intro s s' failure hs hanswer
    cases hanswer
  commit_ok := by
    intro s s' db hs hanswer
    cases hanswer
    exact ⟨rfl, rfl⟩
  commit_error := by
    intro s s' db failure hs hanswer
    cases hanswer
  rollback := by
    intro s s' db x hs hanswer
    cases hanswer
    exact ⟨congrArg (Option.getD · s.database) hs, rfl⟩
  script := by
    intro s s' db sql x hs _ hanswer
    rw [answer, answerStatement] at hanswer
    split at hanswer
    · cases hanswer
      exact ⟨hs, fun done h => by cases h⟩
    · cases hanswer
      exact ⟨hs, fun _ _ => rfl⟩
  record := by
    intro s s' db number fileName now x hs hanswer
    change answerStatement (.fetch _ (recordValues number fileName now)) s = (x, s') at hanswer
    cases htracking : s.database.tracking with
    | none =>
      simp only [answerStatement, htracking] at hanswer
      cases hanswer
      exact ⟨hs, fun h => by cases h⟩
    | some records =>
      simp only [answerStatement, htracking, recordValues, row?] at hanswer
      cases hanswer
      exact ⟨hs, fun _ => rfl⟩
  highest_ok := by
    intro s s' rows hs hanswer
    cases htracking : s.database.tracking with
    | none =>
      simp only [answer, answerStatement, htracking] at hanswer
      cases hanswer
    | some records =>
      simp only [answer, answerStatement, htracking, row?] at hanswer
      cases hanswer
      exact ⟨rfl, hs, records, "highest", rfl, rfl⟩
  highest_error := by
    intro s s' failure hs hanswer
    cases htracking : s.database.tracking with
    | none =>
      simp only [answer, answerStatement, htracking] at hanswer
      cases hanswer
      exact ⟨rfl, hs, fun _ _ _ => rfl⟩
    | some records =>
      simp only [answer, answerStatement, htracking, row?] at hanswer
      cases hanswer

end RecordLayer.Migration
