import RecordLayer.Kind
import RecordLayer.Text.Word

/-!
# Entities

An entity describes one record type: its table and its fields in declaration order.  A field
says where it is stored (a transient one nowhere), whether it is the key that the backend
assigns, which constraints and rules bear on it, and how it appears in documents.  Fields are
addressed by position, so that a position found by name, by column or as the key is one that
the entity has.
-/

namespace RecordLayer

structure Field where
  name : String
  kind : Kind
  /-- The column; none for a transient field. -/
  column : Option String := some name
  /-- The key that the backend assigns. -/
  identity : Bool := false
  /-- The unique constraints the field belongs to, separated by commas. -/
  unique : Option String := none
  /-- The foreign key constraint of the field. -/
  foreign : Option String := none
  rules : Option String := none
  /-- The field's key in documents. -/
  key : String := name
  /-- Left out when a document is written. -/
  hidden : Bool := false

namespace Field

/-- The field has a column. -/
def isPersistable (f : Field) : Bool :=
  f.column.isSome

/-- The names of the unique constraints, without blanks and empty items. -/
def uniqueConstraints (f : Field) : List String :=
  listItems (f.unique.getD "")

end Field

structure Entity where
  table : String
  fields : List Field

namespace Entity

/-- The positions of an entity's fields. -/
abbrev Position (e : Entity) : Type := Fin e.fields.length

variable (e : Entity)

def field (i : e.Position) : Field :=
  e.fields.get i

/-- All positions, in declaration order. -/
def positions : List e.Position :=
  List.finRange e.fields.length

/-- The fields that have a column. -/
def persistable : List e.Position :=
  e.positions.filter fun i => (e.field i).isPersistable

/-- The key, if it is stored. -/
def identity? : Option e.Position :=
  e.positions.find? fun i => (e.field i).identity && (e.field i).isPersistable

def byName? (name : String) : Option e.Position :=
  e.positions.find? fun i => (e.field i).name == name

/-- The first field stored in a column; the case of ASCII letters does not count. -/
def byColumn? (column : String) : Option e.Position :=
  e.positions.find? fun i => (e.field i).column.any (sameName · column)

/-- The column of the key, if it is stored. -/
def identityColumn? : Option String :=
  e.identity?.bind fun i => (e.field i).column

end Entity

end RecordLayer
