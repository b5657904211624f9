import RecordLayer.Proofs.Difference
import RecordLayer.Scripted

/-!
# Updates that are tried again

An update takes the difference over into the record as it stands before the statement is sent,
and leaves it there whatever the answer.  So the record that a failed update leaves shows no
difference any more, and a second attempt has nothing to send: it succeeds without asking the
backend, and the change is never written (`retry_of_failed_update`).
-/

namespace RecordLayer
open Dialogue

namespace Context
variable {e : Entity} {ctx : Context} {current requested : Record e}

/-- **A failed update is lost.**  There was something to write, and a second attempt on the record
that the first one left asks the backend nothing and succeeds with an empty changeset, whoever
answers. -/
theorem retry_of_failed_update (ctx : Context) {current requested : Record e} {key : e.Position}
    (hkey : e.identity? = some key) (hid : (current.value key).isBlank = false)
    {σ τ : Type} (answer : Answerer Statement Statement.Answer σ) (s : σ) {failure : Failure}
    (hfail : (run answer (ctx.update current requested) s).1.result = .error failure)
    (answer' : Answerer Statement Statement.Answer τ) (t : τ) :
    let left := (run answer (ctx.update current requested) s).1.current
    Record.contributing .update current requested ≠ [] ∧
      asked answer' (ctx.update left requested) t = [] ∧
      run answer' (ctx.update left requested) t = (⟨left, none, .ok ⟨[], ∅⟩⟩, t) := by
  intro left
  have hleft : left = Record.merged .update current requested := current_run_update hkey hid
  have hblank : (left.value key).isBlank = false := by
    rw [hleft, Record.value_merged_of_identity (Entity.of_identity? hkey).1, hid]
  have hnone : Record.contributing .update left requested = [] := by
    rw [hleft]
    exact Record.contributing_merged_self
  refine ⟨fun hnil => ?_, ?_, ?_⟩
  · rw [update_of_contributing_eq_nil hkey hid hnil] at hfail
    cases hfail
  · rw [update_of_contributing_eq_nil hkey hblank hnone]
    rfl
  · rw [update_of_contributing_eq_nil hkey hblank hnone, Record.changeset, hnone]
    rfl

end Context

/-! ### A job whose update times out -/

section
open Catalog

/-- A job as it is stored, and the same job moved to another node. -/
def storedJob (node : Int64) : Record job :=
  (Record.empty job).put "id" (.int 5) |>.put "node_id" (.int node)

/-- A backend that runs into its time limit once, and then carries everything out. -/
def limping : List Reply :=
  [.fail (.timeout ⟨1, 0⟩), .done ⟨1, none⟩]

theorem retry_of_timed_out_job :
    let first := run Script.answer ((⟨.sqlite, ∅⟩ : Context).update (storedJob 1) (storedJob 2))
      ⟨limping, []⟩
    first.1.result = .error (.timeout ⟨1, 0⟩) ∧
      asked Script.answer ((⟨.sqlite, ∅⟩ : Context).update first.1.current (storedJob 2))
        first.2 = [] := by
  intro first
  have hfail : first.1.result = .error (.timeout ⟨1, 0⟩) := by decide +kernel
  have hkey : job.identity? = some ⟨0, by decide⟩ := by decide +kernel
  exact ⟨hfail, (Context.retry_of_failed_update ⟨.sqlite, ∅⟩ hkey (by decide +kernel)
    Script.answer _ hfail Script.answer _).2.1⟩

/-- The time limit is a failure to try again after, yet of two attempts one statement is sent, and
the second attempt succeeds. -/
theorem timed_out_update_not_sent_again :
    let first := (⟨.sqlite, ∅⟩ : Context).update (storedJob 1) (storedJob 2)
    let (failed, sent) := Script.hold limping first
    let again := (⟨.sqlite, ∅⟩ : Context).update failed.current (storedJob 2)
    let (retried, sentAgain) := Script.hold limping.tail again
    Failure.isRetryable (.timeout ⟨1, 0⟩) = true ∧
      failed.result = .error (.timeout ⟨1, 0⟩) ∧
      sent = [.execute "UPDATE ra_jobs SET node_id = ? WHERE id = ?" [.int 2, .int 5]] ∧
      sentAgain = [] ∧ retried.result = .ok ⟨[], ∅⟩ := by
  decide +kernel

end

end RecordLayer
