import RecordLayer.Catalog
import RecordLayer.Proofs.Storage

/-!
# Rows that were written

A row that shows the cells of a record's bound values is read as the record: stored fields come
back, decimals by value, and transient fields are as they were in the record that was read over
(`Row.reads_back`).  Nothing depends on the order of the columns, on their letter case, or on what
stands in columns of no field.
-/

namespace RecordLayer

section
open Catalog

/-- An account as it is stored, of which the plain password is known as well. -/
def storedUser : Record user :=
  (newUser "ada" "ada@example.org" default).put "id" (.int 7)
    |>.put "password_digest" (.text "$argon2id$")
    |>.put "password" (.text "open sesame")

/-- Its row, the columns in another order and in capitals, with one that no account has. -/
def userRow : Row :=
  ("LAST_SEEN", .single) ::
    (user.persistable.reverse.map fun i =>
      ((user.columnOf i).toUpper, (storedUser.value i).toCell))

end

end RecordLayer
