import RecordLayer.Json.Content
import RecordLayer.Record

/-!
# Records — Document

Records as JSON documents.  A document is an object under the fields' keys; hidden fields are
not written but are read.  Optional fields may be missing, other keys are passed over, and a
list of all contents in order stands for the object.
-/

namespace RecordLayer

namespace Json

def asTimestamp? : Json → Option Instant
  | text s => Instant.ofDocument? s
  | _      => none

end Json

namespace Kind

/-- The content a document stands for; its type has to be the kind's own. -/
def ofJson? : (k : Kind) → Json → Option k.Content
  | int,        doc => doc.asInt?
  | optInt,     doc => doc.orAbsent Json.asInt?
  | text,       doc => doc.asText?
  | optText,    doc => doc.orAbsent Json.asText?
  | bool,       doc => doc.asBool?
  | optBool,    doc => doc.orAbsent Json.asBool?
  | decimal,    doc => doc.asText?.bind Decimal.ofText?
  | optDecimal, doc => doc.orAbsent fun doc => doc.asText?.bind Decimal.ofText?
  | timestamp,  doc => doc.orAbsent Json.asTimestamp?

def isOptional : Kind → Bool
  | optInt | optText | optBool | optDecimal | timestamp => true
  | int | text | bool | decimal                         => false

end Kind

namespace Record
variable {e : Entity}

/-- The record as a document. -/
def toJson (r : Record e) : Json :=
  .object <| e.positions.filterMap fun i =>
    if (e.field i).hidden then none else some ((e.field i).key, (r.value i).toJson)

/-- The document of one field: the entry under its key, or its place in the list. -/
def documentOf? (doc : Json) (i : e.Position) : Option Json :=
  match doc with
  | .list items => items[i.val]?
  | _ =>
    match doc.entry? (e.field i).key with
    | some entry => some entry
    | none => if (e.field i).kind.isOptional then some .null else none

/-- The record a document stands for, if every field can be read. -/
def ofJson? (e : Entity) (doc : Json) : Option (Record e) :=
  let fits := match doc with
    | .object _ => true
    | .list items => items.length == e.fields.length
    | _ => false
  if !fits then none
  else e.positions.foldlM (fun r i => do
    let entry ← documentOf? doc i
    let x ← (e.field i).kind.ofJson? entry
    some (r.set i x)) (Record.empty e)

end Record

end RecordLayer
