/-!
# Dialogues

An operation on a backend is a dialogue: it asks, is answered, and goes on with the answer
until it is done.  A dialogue says what is asked and in which order, and leaves open who
answers.  `Dialogue.run` holds it with an answerer that has a state.
-/

namespace RecordLayer

/-- A dialogue that asks questions of `Q`, is answered with `A q`, and ends in an `α`. -/
inductive Dialogue (Q : Type) (A : Q → Type) (α : Type) where
  | done (a : α)
  | ask (q : Q) (next : A q → Dialogue Q A α)

/-- Answers questions, changing a state of type `σ`. -/
abbrev Answerer (Q : Type) (A : Q → Type) (σ : Type) := (q : Q) → σ → A q × σ

namespace Dialogue
variable {Q : Type} {A : Q → Type} {α β σ : Type}

protected def bind : Dialogue Q A α → (α → Dialogue Q A β) → Dialogue Q A β
  | done a,     f => f a
  | ask q next, f => ask q fun x => (next x).bind f

instance : Monad (Dialogue Q A) where
  pure := done
  bind := Dialogue.bind

/-- Holds the dialogue, and gives its end and the state it leaves. -/
def run (answer : Answerer Q A σ) : Dialogue Q A α → σ → α × σ
  | done a,     s => (a, s)
  | ask q next, s => run answer (next (answer q s).1) (answer q s).2

/-- The questions asked when the dialogue is held. -/
def asked (answer : Answerer Q A σ) : Dialogue Q A α → σ → List Q
  | done _,     _ => []
  | ask q next, s => q :: asked answer (next (answer q s).1) (answer q s).2

theorem run_bind (answer : Answerer Q A σ) (d : Dialogue Q A α) (f : α → Dialogue Q A β)
    (s : σ) : run answer (d.bind f) s =
      run answer (f (run answer d s).1) (run answer d s).2 := by
  induction d generalizing s with
  | done a => rfl
  | ask q next ih => exact ih _ _

theorem run_andThen (answer : Answerer Q A σ) (d : Dialogue Q A α) (f : α → Dialogue Q A β)
    (s : σ) : run answer (d >>= f) s =
      run answer (f (run answer d s).1) (run answer d s).2 :=
  run_bind answer d f s

theorem asked_bind (answer : Answerer Q A σ) (d : Dialogue Q A α) (f : α → Dialogue Q A β)
    (s : σ) : asked answer (d.bind f) s =
      asked answer d s ++ asked answer (f (run answer d s).1) (run answer d s).2 := by
  induction d generalizing s with
  | done a => rfl
  | ask q next ih =>
    simp only [Dialogue.bind, asked, run, List.cons_append, List.cons.injEq, true_and]
    exact ih _ _

/-- The dialogue with each question put in the words of another kind. -/
def translate {Q' : Type} {A' : Q' → Type} (word : Q → Q')
    (back : (q : Q) → A' (word q) → A q) : Dialogue Q A α → Dialogue Q' A' α
  | done a     => done a
  | ask q next => ask (word q) fun x => translate word back (next (back q x))

end Dialogue

end RecordLayer
