import RecordLayer.Rule
import RecordLayer.Text.Lowercase

/-!
# Rules — Extra

Rules that a rulebook can be given besides the builtin ones.
-/

namespace RecordLayer.Rulebook

/-- The text is in lower case. -/
def lowercase : Check := fun v _ => v.asText?.any fun s => Text.isLowered s.toList

/-- The text begins with the parameter, or with a question mark if there is none. -/
def beginning : Check := fun v param =>
  v.asText?.any fun s => Text.beginsWith (param.getD "?").toList s.toList

end RecordLayer.Rulebook
