import RecordLayer.Catalog
import RecordLayer.Proofs.NameMap
import RecordLayer.Proofs.Text.Identifier
import RecordLayer.Proofs.Text.Mark
import RecordLayer.Validation

/-!
# A broken unique constraint in each dialect

PostgreSQL reports the name of a broken unique constraint on its own, MySQL writes it behind a value
that the user chose, and SQLite writes the columns in its place.  Each report is read back as what
it was written from: the name is found whatever the value (`duplicateKey?_duplicateEntry`), and so
are all columns (`uniqueColumns_uniqueFailed`).  If the fields declare the constraint for its
columns, the three reports therefore come home to the same fields (`Entity.unique_faults_agree`).
-/

namespace RecordLayer
open Text

/-! ### Messages -/

/-- The text has no blank, comma or point in it. -/
structure Text.Unbroken (s : List Char) : Prop where
  blank : ∀ c ∈ s, isBlank c = false
  comma : ',' ∉ s
  point : '.' ∉ s

theorem Text.Unbroken.of_isWordChar {s : List Char} (h : ∀ c ∈ s, isWordChar c = true) :
    Unbroken s where
  blank c hc := isBlank_of_isWordChar (h c hc)
  comma hmem := absurd (h _ hmem) (by decide)
  point hmem := absurd (h _ hmem) (by decide)

namespace Fault

/-- MySQL's message about a value that is there already. -/
def duplicateEntry (value table constraint : String) : String :=
  "Duplicate entry '" ++ value ++ "' for key '" ++ table ++ "." ++ constraint ++ "'"

/-- SQLite's message about columns whose values are there already. -/
def uniqueFailed (table : String) (columns : List String) : String :=
  "UNIQUE constraint failed: " ++ joinWith ", " (columns.map fun c => table ++ "." ++ c)

theorem toList_duplicateEntry (value table constraint : String) :
    (duplicateEntry value table constraint).toList =
      ("Duplicate entry '".toList ++ value.toList ++ "' ".toList ++ "for key '".toList ++
        table.toList) ++ '.' :: (constraint.toList ++ ['\'']) := by
  unfold duplicateEntry
  simp

theorem toList_uniqueFailed (table : String) (columns : List String) :
    (uniqueFailed table columns).toList = "UNIQUE constraint failed".toList ++ [':'] ++
      ' ' :: (joinWith ", " (columns.map fun c => table ++ "." ++ c)).toList := by
  unfold uniqueFailed
  simp

theorem lastPart_append_cons {s : List Char} (h : '.' ∉ s) (t : List Char) :
    lastPart (t ++ '.' :: s) = s := by
  rw [lastPart, cutLast?_singleton h]

/-- The constraint is found behind every value: the last `for key '` stands before the constraint's
name, which has no blank in it. -/
theorem duplicateKey?_duplicateEntry {constraint : String}
    (hconstraint : Unbroken constraint.toList) (value table : String) :
    duplicateKey? (duplicateEntry value table constraint).toList = some constraint.toList := by
  have hnone : cutLast? "for key '".toList (constraint.toList ++ ['\'']) = none := by
    refine cutLast?_eq_none_iff.2 fun hoccurs => ?_
    have hblank : ' ' ∈ constraint.toList ++ ['\''] := hoccurs.subset (by decide +kernel)
    rcases List.mem_append.1 hblank with hmem | hmem
    · exact absurd (hconstraint.blank _ hmem) (by decide)
    · exact absurd hmem (by decide)
  obtain ⟨⟨before, after⟩, hcut⟩ := Option.ne_none_iff_exists'.1
    (cutLast?_ne_none "for key '".toList
      ("Duplicate entry '".toList ++ value.toList ++ "' ".toList) table.toList)
  have hclosed : beforeMark? ['\''] (after ++ '.' :: (constraint.toList ++ ['\''])) =
      some (after ++ '.' :: constraint.toList) := by
    rw [beforeMark?, ← List.cons_append, ← List.append_assoc, List.reverse_append]
    simp [afterMark?]
  rw [duplicateKey?, toList_duplicateEntry, cutLast?_append_cons (by decide) hnone, hcut]
  simp only [Option.map_some, hclosed, Option.getD_some]
  rw [lastPart_append_cons hconstraint.point]

/-- A list is cut at the commas that it was joined by. -/
theorem cutAt_joinWith {items : List String} (hitems : ∀ item ∈ items, ',' ∉ item.toList)
    (hsome : items ≠ []) : cutAt ',' (' ' :: (joinWith ", " items).toList) =
      items.map fun item => ' ' :: item.toList := by
  have hblank : ∀ item ∈ items, ',' ∉ ' ' :: item.toList := fun item hitem hmem =>
    hitems item hitem ((List.mem_cons.1 hmem).resolve_left (by decide))
  rw [cutAt_eq_splitOn]
  induction items with
  | nil => exact absurd rfl hsome
  | cons item rest ih =>
    cases rest with
    | nil => exact List.splitOn_eq_singleton (hblank item List.mem_cons_self)
    | cons next rest =>
      have hjoined : ' ' :: (joinWith ", " (item :: next :: rest)).toList =
          (' ' :: item.toList) ++ ',' :: (' ' :: (joinWith ", " (next :: rest)).toList) := by
        simp [joinWith]
      rw [hjoined,
        List.splitOn_append_cons_self_of_not_mem (hblank item List.mem_cons_self),
        ih (fun item hmem => hitems item (List.mem_cons_of_mem _ hmem)) (List.cons_ne_nil _ _)
          (fun item hmem => hblank item (List.mem_cons_of_mem _ hmem))]
      rfl

theorem lastPart_trimmed {column : String} (hcolumn : Unbroken column.toList)
    (table : String) :
    lastPart (trimmed (' ' :: (table ++ "." ++ column).toList)) = column.toList := by
  have hitem : ' ' :: (table ++ "." ++ column).toList =
      (' ' :: table.toList) ++ '.' :: column.toList := by simp
  rw [hitem, trimmed_append_cons (by decide), trimEnd_of_unbroken hcolumn.blank,
    lastPart_append_cons hcolumn.point]

/-- The pieces between the commas are the columns, once the table is taken off. -/
theorem lastParts_joinWith {table : String} (htable : ',' ∉ table.toList) {columns : List String}
    (hcolumns : ∀ c ∈ columns, c ≠ "" ∧ Unbroken c.toList) :
    ((cutAt ',' (' ' :: (joinWith ", " (columns.map fun c => table ++ "." ++ c)).toList)).map
      fun column => lastPart (trimmed column)).filter (!·.isEmpty) =
        columns.map String.toList := by
  by_cases hnone : columns = []
  · subst hnone
    rfl
  · have hitems : ∀ item ∈ columns.map (fun c => table ++ "." ++ c), ',' ∉ item.toList := by
      intro item hitem
      obtain ⟨c, hc, rfl⟩ := List.mem_map.1 hitem
      simp [htable, (hcolumns c hc).2.comma]
    have hparts : ∀ c ∈ columns, lastPart (trimmed (' ' :: (table ++ "." ++ c).toList)) =
        c.toList := fun c hc => lastPart_trimmed (hcolumns c hc).2 table
    rw [cutAt_joinWith hitems (mt List.map_eq_nil_iff.1 hnone), List.map_map, List.map_map,
      List.filter_eq_self.2]
    · exact List.map_congr_left hparts
    · intro part hpart
      obtain ⟨c, hc, rfl⟩ := List.mem_map.1 hpart
      have hpart := hparts c hc
      simp only [Function.comp_apply, hpart]
      simpa using (hcolumns c hc).1

/-- All columns are found. -/
theorem uniqueColumns_uniqueFailed {table : String} (htable : ',' ∉ table.toList)
    {columns : List String} (hcolumns : ∀ c ∈ columns, c ≠ "" ∧ Unbroken c.toList) :
    uniqueColumns (uniqueFailed table columns).toList = columns := by
  have hback : String.ofList ∘ String.toList = id := funext fun c => String.ofList_toList
  rw [uniqueColumns, toList_uniqueFailed, cutFirst?_append (endsAt_singleton (by decide +kernel))]
  simp only [lastParts_joinWith htable hcolumns, List.map_map, hback, List.map_id]

end Fault

/-! ### Reports -/

namespace Dialect

/-- The dialect's report that the constraint on columns of the table is broken.  MySQL's report has
to be taken for one of a unique constraint, which depends on the value in it. -/
def Reports (dialect : Dialect) (table constraint : String) (columns : List String)
    (report : Report) : Prop :=
  match dialect with
  | postgres => report.code = some "23505" ∧ report.constraint = some constraint
  | mysql =>
    (∃ value, report.message = Fault.duplicateEntry value table constraint) ∧
      ∃ ref, mysql.classifyReport report = .unique ref
  | sqlite => report.message = Fault.uniqueFailed table columns

/-- A report of MySQL that is taken for one of a unique constraint gives the constraint that its
message ends with. -/
theorem classifyReport_mysql {report : Report} {ref : ConstraintRef}
    (h : mysql.classifyReport report = .unique ref) :
    ref = ⟨(Fault.duplicateKey? report.message.toList).map .ofList, []⟩ := by
  simp only [classifyReport] at h
  split at h
  · cases h
  · split at h
    · exact (Fault.unique.inj h).symm
    · split at h <;> cases h

theorem classifyReport_sqlite {report : Report} {table : String} {columns : List String}
    (h : report.message = Fault.uniqueFailed table columns) :
    sqlite.classifyReport report =
      .unique ⟨none, Fault.uniqueColumns (Fault.uniqueFailed table columns).toList⟩ := by
  have hother : beginsWith "no such table".toList (Fault.uniqueFailed table columns).toList =
      false := by
    rw [Fault.toList_uniqueFailed]
    simp [beginsWith, afterMark?]
  have hbegins : beginsWith "UNIQUE constraint failed".toList
      (Fault.uniqueFailed table columns).toList = true := by
    rw [Fault.toList_uniqueFailed, beginsWith, List.append_assoc, afterMark?_eq_some_iff.2 rfl]
    rfl
  simp only [classifyReport, h, hother, hbegins, or_true, if_true, Bool.false_eq_true, if_false]

/-- The reports of a broken constraint give its name or all its columns. -/
theorem Reports.classifyReport {dialect : Dialect} {table constraint : String}
    {columns : List String} (htable : ',' ∉ table.toList)
    (hconstraint : Unbroken constraint.toList)
    (hcolumns : ∀ c ∈ columns, c ≠ "" ∧ Unbroken c.toList) {report : Report}
    (h : dialect.Reports table constraint columns report) :
    dialect.classifyReport report = .unique ⟨some constraint, []⟩ ∨
      dialect.classifyReport report = .unique ⟨none, columns⟩ := by
  cases dialect with
  | postgres =>
    obtain ⟨hcode, hname⟩ := h
    left
    simp only [Dialect.classifyReport, hcode, hname]
  | mysql =>
    obtain ⟨⟨value, hmessage⟩, ref, href⟩ := h
    rw [href, classifyReport_mysql href, hmessage, Fault.duplicateKey?_duplicateEntry hconstraint,
      Option.map_some, String.ofList_toList]
    exact .inl rfl
  | sqlite =>
    right
    rw [classifyReport_sqlite h, Fault.uniqueColumns_uniqueFailed htable hcolumns]

end Dialect

/-! ### Fields -/

/-- A field without the tag lists no constraints. -/
theorem Field.uniqueConstraints_eq_nil {f : Field} (h : f.unique = none) :
    f.uniqueConstraints = [] := by
  rw [uniqueConstraints, h]
  rfl

/-- A constraint that is named belongs to the fields that list it. -/
theorem ConstraintRef.isUniqueOf_name (constraint : String) (f : Field) :
    (⟨some constraint, []⟩ : ConstraintRef).isUniqueOf f =
      f.uniqueConstraints.contains constraint := by
  cases htag : f.unique with
  | none => simp [isUniqueOf, htag, Field.uniqueConstraints_eq_nil htag]
  | some tag => simp [isUniqueOf, hasColumnOf, htag]

namespace Entity
variable {e : Entity} {constraint : String} {columns : List String}

/-- The fields declare a unique constraint on columns: of those that are tagged, the ones that list
the constraint are the ones that are stored in its columns, letter case aside. -/
def DeclaresUnique (e : Entity) (constraint : String) (columns : List String) : Prop :=
  ∀ f ∈ e.fields, f.unique.isSome = true →
    (constraint ∈ f.uniqueConstraints ↔
      ∃ column ∈ f.column, ∃ c ∈ columns, sameName c column = true)

/-- A constraint known by its columns belongs to the fields that list it. -/
theorem DeclaresUnique.isUniqueOf_columns (h : e.DeclaresUnique constraint columns) {f : Field}
    (hf : f ∈ e.fields) : (⟨none, columns⟩ : ConstraintRef).isUniqueOf f =
      f.uniqueConstraints.contains constraint := by
  cases htag : f.unique with
  | none => simp [ConstraintRef.isUniqueOf, htag, Field.uniqueConstraints_eq_nil htag]
  | some tag =>
    rw [Bool.eq_iff_iff, List.contains_iff_mem, h f hf (by rw [htag]; rfl)]
    simp [ConstraintRef.isUniqueOf, ConstraintRef.hasColumnOf, htag, Option.any_eq_true]

/-- The message for the fields that list a unique constraint. -/
def takenErrors (e : Entity) (constraint : String) : FieldErrors :=
  .ofList <| e.fields.filterMap fun f =>
    if f.uniqueConstraints.contains constraint then some (f.name, uniqueMessage) else none

theorem faultErrors_unique {ref : ConstraintRef}
    (h : ∀ f ∈ e.fields, ref.isUniqueOf f = f.uniqueConstraints.contains constraint) :
    e.faultErrors (.unique ref) = e.takenErrors constraint := by
  refine congrArg NameMap.ofList (List.filterMap_congr fun f hf => ?_)
  rw [Fault.messageFor?, h f hf]
  cases f.uniqueConstraints.contains constraint <;> rfl

theorem get?_takenErrors {name message : String} :
    (e.takenErrors constraint).get? name = some message ↔
      (∃ f ∈ e.fields, f.name = name ∧ constraint ∈ f.uniqueConstraints) ∧
        message = uniqueMessage := by
  rw [takenErrors, NameMap.get?_ofList_const (v := uniqueMessage)]
  · simp [and_comm]
  · intro entry hentry
    obtain ⟨f, -, hf⟩ := List.mem_filterMap.1 hentry
    split at hf
    · rw [← Option.some.inj hf]
    · cases hf

/-- **The three dialects agree on a broken unique constraint.**  If the fields declare the
constraint for its columns, its report in any dialect gives the same errors: the message for each
field that lists the constraint, and nothing else. -/
theorem unique_faults_agree (htable : ',' ∉ e.table.toList)
    (hconstraint : Unbroken constraint.toList)
    (hcolumns : ∀ c ∈ columns, c ≠ "" ∧ Unbroken c.toList)
    (hdeclares : e.DeclaresUnique constraint columns) :
    ∃ errors : FieldErrors,
      (∀ (dialect : Dialect) (report : Report),
        dialect.Reports e.table constraint columns report →
          e.faultErrors (dialect.classifyReport report) = errors) ∧
      ∀ name message, errors.get? name = some message ↔
        (∃ f ∈ e.fields, f.name = name ∧ constraint ∈ f.uniqueConstraints) ∧
          message = uniqueMessage := by
  refine ⟨e.takenErrors constraint, fun dialect report hreport => ?_,
    fun name message => get?_takenErrors⟩
  rcases hreport.classifyReport htable hconstraint hcolumns with hfault | hfault
  · rw [hfault]
    exact faultErrors_unique fun f _ => ConstraintRef.isUniqueOf_name constraint f
  · rw [hfault]
    exact faultErrors_unique fun f hf => hdeclares.isUniqueOf_columns hf

end Entity

/-! ### A code that is taken -/

section
open Catalog

/-- The code of a node is taken.  The code in MySQL's message looks like the end of another
message. -/
theorem taken_code_in_every_dialect :
    ∃ errors : FieldErrors,
      node.faultErrors (Dialect.postgres.classifyReport
        ⟨some "23505", "duplicate key value", .unique, some "ra_nodes_code_unique_index"⟩) =
          errors ∧
      node.faultErrors (Dialect.mysql.classifyReport
        ⟨some "23000", "Duplicate entry 'n.1' for key 'ra_nodes.name' for key " ++
          "'ra_nodes.ra_nodes_code_unique_index'", .unique, none⟩) = errors ∧
      node.faultErrors (Dialect.sqlite.classifyReport
        ⟨some "2067", "UNIQUE constraint failed: ra_nodes.code", .unique, none⟩) = errors ∧
      errors.get? "code" = some uniqueMessage ∧ errors.get? "name" = none := by
  have hconstraint : Unbroken "ra_nodes_code_unique_index".toList :=
    .of_isWordChar (isWordChar_of_isIdentifier (by decide +kernel))
  have hcolumns : ∀ c ∈ ["code"], c ≠ "" ∧ Unbroken c.toList := by
    rintro c hc
    obtain rfl := List.mem_singleton.1 hc
    exact ⟨by decide,
      .of_isWordChar (isWordChar_of_isIdentifier (by decide +kernel))⟩
  have hdeclares : node.DeclaresUnique "ra_nodes_code_unique_index" ["code"] := by
    unfold Entity.DeclaresUnique
    decide +kernel
  obtain ⟨errors, hreports, hentries⟩ :=
    Entity.unique_faults_agree (by decide +kernel) hconstraint hcolumns hdeclares
  refine ⟨errors, hreports .postgres _ ⟨rfl, rfl⟩, hreports .mysql _ ⟨⟨?value, ?_⟩, ?ref, ?_⟩,
    hreports .sqlite _ ?_, (hentries _ _).2 ⟨by decide +kernel, rfl⟩, ?_⟩
  case value => exact "n.1' for key 'ra_nodes.name"
  case ref => exact ⟨some "ra_nodes_code_unique_index", []⟩
  · decide +kernel
  · decide +kernel
  · unfold Dialect.Reports
    decide +kernel
  · refine Option.eq_none_iff_forall_ne_some.2 fun message hname => ?_
    obtain ⟨hfield, -⟩ := (hentries _ _).1 hname
    exact absurd hfield (by decide +kernel)

end

end RecordLayer
