import RecordLayer.Failure
import RecordLayer.Json

/-!
# Failures — Response

How a failure is answered over HTTP: a status and a body with a code, a message and, for a
failed validation, the field errors.  Every failure without an answer of its own is an internal
error, so that its wording stays inside.
-/

namespace RecordLayer

structure Response where
  status : Nat
  code : String
  message : String
  details : Option Json

/-- The body of an answer. -/
def Response.body (r : Response) : Json :=
  let details := match r.details with
    | some doc => [("details", doc)]
    | none => []
  .object [("error", .object ([("code", .text r.code), ("message", .text r.message)] ++ details))]

def Failure.response : Failure → Response
  | validation errors =>
    ⟨422, "VALIDATION_FAILED", "One or more fields are invalid.",
      some (.object (errors.entries.map fun (name, message) => (name, .text message)))⟩
  | notFound => ⟨404, "NOT_FOUND", "Record not found.", none⟩
  | timeout _ => ⟨504, "DATABASE_TIMEOUT", "The database did not respond in time.", none⟩
  | _ => ⟨500, "INTERNAL_ERROR", "An internal server error occurred.", none⟩

end RecordLayer
