import RecordLayer.Session

/-!
# Scripted backend

A backend that answers from a list of replies, one a statement, and keeps the statements it was
sent.  When the replies are used up it finds nothing.
-/

namespace RecordLayer

inductive Reply where
  | rows (rows : List Row)
  | done (done : Done)
  | fail (failure : Failure)

/-- The replies to come and the statements so far. -/
structure Script where
  replies : List Reply
  sent : List Statement

namespace Script

/-- A reply taken as rows. -/
def asRows : Option Reply → Except Failure (List Row)
  | some (.rows rows)    => .ok rows
  | some (.done _)       => .ok []
  | some (.fail failure) => .error failure
  | none                 => .error .notFound

/-- A reply taken as a count. -/
def asDone : Option Reply → Except Failure Done
  | some (.rows _)       => .ok ⟨0, none⟩
  | some (.done done)    => .ok done
  | some (.fail failure) => .error failure
  | none                 => .error .notFound

def answer : Answerer Statement Statement.Answer Script
  | .fetch sql values, s =>
    (asRows s.replies.head?, ⟨s.replies.tail, s.sent ++ [.fetch sql values]⟩)
  | .execute sql values, s =>
    (asDone s.replies.head?, ⟨s.replies.tail, s.sent ++ [.execute sql values]⟩)

/-- Holds a session with a backend of the given replies; gives its end and what was sent. -/
def hold {α : Type} (replies : List Reply) (session : Session α) : α × List Statement :=
  let (a, s) := session.run answer ⟨replies, []⟩
  (a, s.sent)

end Script

end RecordLayer
