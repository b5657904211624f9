import RecordLayer.Proofs.Attribution
import RecordLayer.Session

/-!
# Reports that are mistaken

Two ways in which a broken unique constraint is taken for something else.  MySQL writes the value
that the user chose into its message, and the marks of a missing table are looked for first: the
report is mistaken for one of a missing table exactly if they occur in the value
(`Dialect.classifyReport_duplicateEntry`).  SQLite writes the table before each column, and it is
not compared with the table of the entity: the report comes home to every field with a unique tag
that is stored in a column of that name, whichever table it is about
(`Context.explain_uniqueFailed`).
-/

namespace RecordLayer
open Text

/-! ### A value that says that something does not exist -/

namespace Fault

/-- What MySQL says of a table that is not there. -/
def missingMark : List Char :=
  "doesn't exist".toList

/-- Of the parts of the message only the value can hold the mark: the names in it have no blank, and
the apostrophe of the mark is not one of the quotes between the parts. -/
theorem missingMark_infix_duplicateEntry {table constraint : String} (htable : ' ' ∉ table.toList)
    (hconstraint : ' ' ∉ constraint.toList) (value : String) :
    missingMark <:+: (duplicateEntry value table constraint).toList ↔
      missingMark <:+: value.toList := by
  have hmessage : (duplicateEntry value table constraint).toList =
      "Duplicate entry ".toList ++ '\'' :: (value.toList ++ '\'' :: (" for key ".toList ++
        '\'' :: ((table.toList ++ '.' :: constraint.toList) ++ '\'' :: []))) := by
    unfold duplicateEntry
    simp
  have hmark : missingMark = "doesn".toList ++ '\'' :: "t exist".toList := by decide
  have hfront : '\'' ∉ "doesn".toList := by decide
  have hback : '\'' ∉ "t exist".toList := by decide
  rw [hmessage, hmark, infix_append_cons_iff hfront hback, infix_append_cons_iff hfront hback,
    infix_append_cons_iff hfront hback, infix_append_cons_iff hfront hback]
  constructor
  · intro h
    rcases h with h | h | ⟨h, -⟩
    · exact absurd h (by decide +kernel)
    · rcases h with h | h | ⟨-, ⟨behind, h⟩⟩
      · exact h
      · rcases h with h | h | ⟨h, -⟩
        · exact absurd h (by decide +kernel)
        · rcases h with h | h | ⟨-, h⟩
          · have hblank : ' ' ∈ table.toList ++ '.' :: constraint.toList :=
              h.subset (by decide +kernel)
            simp [htable, hconstraint] at hblank
          · exact absurd h (by decide +kernel)
          · exact absurd h (by decide +kernel)
        · exact absurd h (by decide +kernel)
      · -- behind the value comes a blank, not the rest of the mark
        cases h
    · exact absurd h (by decide +kernel)
  · intro h
    exact .inr (.inl (.inl h))

end Fault

namespace Dialect

/-- **MySQL's report of a broken unique constraint.**  It is taken for what it is, with the name of
the constraint, exactly if the value in its message does not itself say that something does not
exist; otherwise it is taken for the report of a missing table. -/
theorem classifyReport_duplicateEntry {report : Report} {value table constraint : String}
    (hcode : report.code = some "23000") (hkind : report.kind = .unique)
    (hmessage : report.message = Fault.duplicateEntry value table constraint)
    (htable : ' ' ∉ table.toList) (hconstraint : Unbroken constraint.toList) :
    (mysql.classifyReport report = .unique ⟨some constraint, []⟩ ↔
      ¬ Fault.missingMark <:+: value.toList) ∧
    (mysql.classifyReport report = .relationNotFound ↔
      Fault.missingMark <:+: value.toList) := by
  have hblank : ' ' ∉ constraint.toList := by
    intro hmem
    exact absurd (hconstraint.blank ' ' hmem) (by decide)
  have hmissing : hasMark "doesn't exist".toList report.message.toList = true ↔
      Fault.missingMark <:+: value.toList := by
    rw [hmessage, hasMark_iff]
    exact Fault.missingMark_infix_duplicateEntry htable hblank value
  have hother : ¬ report.code = some "42S02" := by
    rw [hcode]
    decide
  have hname : (Fault.duplicateKey? report.message.toList).map .ofList = some constraint := by
    rw [hmessage, Fault.duplicateKey?_duplicateEntry hconstraint, Option.map_some,
      String.ofList_toList]
  by_cases hvalue : Fault.missingMark <:+: value.toList
  · have hfault : mysql.classifyReport report = .relationNotFound := by
      simp only [classifyReport, hmissing.2 hvalue, or_true, if_true]
    simp [hfault, hvalue]
  · have hfault : mysql.classifyReport report = .unique ⟨some constraint, []⟩ := by
      simp only [classifyReport, hother, mt hmissing.1 hvalue, or_self, if_false, hkind, true_or,
        if_true, hname, Bool.false_eq_true]
    simp [hfault, hvalue]

/-- A code that is taken is recognised, and is not if it reads as one that is missing. -/
theorem taken_codes_of_nodes :
    mysql.classifyReport ⟨some "23000",
        "Duplicate entry 'edge-01' for key 'ra_nodes.ra_nodes_code_unique_index'", .unique, none⟩ =
      .unique ⟨some "ra_nodes_code_unique_index", []⟩ ∧
    mysql.classifyReport ⟨some "23000",
        "Duplicate entry 'doesn't exist' for key 'ra_nodes.ra_nodes_code_unique_index'", .unique,
        none⟩ = .relationNotFound := by
  have hconstraint : Unbroken "ra_nodes_code_unique_index".toList :=
    .of_isWordChar (isWordChar_of_isIdentifier (by decide +kernel))
  have htable : ' ' ∉ "ra_nodes".toList := by decide +kernel
  have hplain : "Duplicate entry 'edge-01' for key 'ra_nodes.ra_nodes_code_unique_index'" =
      Fault.duplicateEntry "edge-01" "ra_nodes" "ra_nodes_code_unique_index" := by decide +kernel
  have hmissing : "Duplicate entry 'doesn't exist' for key 'ra_nodes.ra_nodes_code_unique_index'" =
      Fault.duplicateEntry "doesn't exist" "ra_nodes" "ra_nodes_code_unique_index" := by
    decide +kernel
  refine ⟨(classifyReport_duplicateEntry rfl rfl hplain htable hconstraint).1.2 ?_,
    (classifyReport_duplicateEntry rfl rfl hmissing htable hconstraint).2.2 ?_⟩
  · decide +kernel
  · decide +kernel

/-- A value can keep a broken unique constraint from being recognised. -/
theorem taken_code_mistaken_for_missing_table :
    mysql.classifyReport ⟨some "23000",
        "Duplicate entry 'it doesn't exist' for key 'ra_nodes.ra_nodes_code_unique_index'", .unique,
        none⟩ ≠ .unique ⟨some "ra_nodes_code_unique_index", []⟩ := by
  decide +kernel

end Dialect

/-! ### A table that is another's -/

/-- The field has a unique tag and is stored in one of the columns, letter case aside. -/
def Field.IsTaggedIn (f : Field) (columns : List String) : Prop :=
  f.unique.isSome = true ∧ ∃ column ∈ f.column, ∃ c ∈ columns, sameName c column = true

theorem ConstraintRef.isUniqueOf_columns_iff {f : Field} {columns : List String} :
    (⟨none, columns⟩ : ConstraintRef).isUniqueOf f = true ↔ f.IsTaggedIn columns := by
  simp [isUniqueOf, hasColumnOf, Field.IsTaggedIn, Option.any_eq_true]

namespace Entity
variable {e : Entity} {ref : ConstraintRef}

theorem get?_faultErrors_unique {name message : String} :
    (e.faultErrors (.unique ref)).get? name = some message ↔
      (∃ f ∈ e.fields, f.name = name ∧ ref.isUniqueOf f = true) ∧ message = uniqueMessage := by
  rw [faultErrors, NameMap.get?_ofList_const (v := uniqueMessage)]
  · simp [Fault.messageFor?, and_comm]
  · intro entry hentry
    obtain ⟨f, -, hf⟩ := List.mem_filterMap.1 hentry
    obtain ⟨message, hmessage, rfl⟩ := Option.map_eq_some_iff.1 hf
    rw [Fault.messageFor?] at hmessage
    split at hmessage
    · exact (Option.some.inj hmessage).symm
    · cases hmessage

theorem isEmpty_faultErrors_unique : (e.faultErrors (.unique ref)).isEmpty = true ↔
    ∀ f ∈ e.fields, ref.isUniqueOf f = false := by
  constructor
  · intro hempty f hf
    have hnone := List.filterMap_eq_nil_iff.1 (NameMap.eq_nil_of_isEmpty_ofList hempty) f hf
    cases href : ref.isUniqueOf f with
    | false => rfl
    | true => simp [Fault.messageFor?, href] at hnone
  · intro hnone
    have hnil : (e.fields.filterMap fun f =>
        ((Fault.unique ref).messageFor? f).map fun message => (f.name, message)) = [] := by
      refine List.filterMap_eq_nil_iff.2 fun f hf => ?_
      simp [Fault.messageFor?, hnone f hf]
    rw [faultErrors, hnil]
    rfl

end Entity

namespace Context

/-- **SQLite's report of a broken unique constraint on any table.**  The table in it does not count:
the fields of an entity that get a message are those with a unique tag that are stored in a column
of one of the names, and the failure is handed back as it is exactly if there is no such field. -/
theorem explain_uniqueFailed {ctx : Context} (hdialect : ctx.dialect = .sqlite) (e : Entity)
    {report : Report} {table : String} {columns : List String} (htable : ',' ∉ table.toList)
    (hcolumns : ∀ c ∈ columns, c ≠ "" ∧ Unbroken c.toList)
    (hmessage : report.message = Fault.uniqueFailed table columns) :
    (∀ name message,
      (e.faultErrors (ctx.dialect.classifyReport report)).get? name = some message ↔
        (∃ f ∈ e.fields, f.name = name ∧ f.IsTaggedIn columns) ∧ message = uniqueMessage) ∧
    (ctx.explain e (.database (.reported report)) = .database (.reported report) ↔
      ∀ f ∈ e.fields, ¬ f.IsTaggedIn columns) := by
  have hfault : ctx.dialect.classifyReport report = .unique ⟨none, columns⟩ := by
    rw [hdialect, Dialect.classifyReport_sqlite hmessage,
      Fault.uniqueColumns_uniqueFailed htable hcolumns]
  constructor
  · intro name message
    rw [hfault, Entity.get?_faultErrors_unique]
    simp only [ConstraintRef.isUniqueOf_columns_iff]
  · have hempty : (e.faultErrors (.unique ⟨none, columns⟩)).isEmpty = true ↔
        ∀ f ∈ e.fields, ¬ f.IsTaggedIn columns := by
      rw [Entity.isEmpty_faultErrors_unique]
      simp only [← ConstraintRef.isUniqueOf_columns_iff, Bool.not_eq_true]
    rw [← hempty, explain, Dialect.classify, hfault]
    cases hcase : (e.faultErrors (.unique ⟨none, columns⟩)).isEmpty with
    | true => simp
    | false => simp

end Context

section
open Catalog

/-- That the code of a job's detail is taken is told of the code of a node; that its script is taken
is not, since no field of a node is stored in a column of that name. -/
theorem taken_detail_and_nodes :
    (node.faultErrors (Dialect.sqlite.classifyReport
        ⟨some "2067", "UNIQUE constraint failed: ra_job_details.code", .unique, none⟩)).get?
      "code" = some uniqueMessage ∧
    Context.explain ⟨.sqlite, .builtin⟩ node (.database (.reported
        ⟨some "2067", "UNIQUE constraint failed: ra_job_details.script", .unique, none⟩)) =
      .database (.reported
        ⟨some "2067", "UNIQUE constraint failed: ra_job_details.script", .unique, none⟩) := by
  have hword : ∀ c ∈ ["code", "script"], c ≠ "" ∧ isIdentifier c.toList = true := by decide +kernel
  have hcolumns : ∀ column ∈ ["code", "script"], ∀ c ∈ [column], c ≠ "" ∧ Unbroken c.toList := by
    intro column hcolumn c hc
    obtain rfl := List.mem_singleton.1 hc
    exact ⟨(hword c hcolumn).1, .of_isWordChar (isWordChar_of_isIdentifier (hword c hcolumn).2)⟩
  have htable : ',' ∉ "ra_job_details".toList := by decide +kernel
  have hcode : "UNIQUE constraint failed: ra_job_details.code" =
      Fault.uniqueFailed "ra_job_details" ["code"] := by decide +kernel
  have hscript : "UNIQUE constraint failed: ra_job_details.script" =
      Fault.uniqueFailed "ra_job_details" ["script"] := by decide +kernel
  have hdialect : (⟨.sqlite, .builtin⟩ : Context).dialect = .sqlite := rfl
  refine ⟨((Context.explain_uniqueFailed hdialect node htable (hcolumns _ (by decide)) hcode).1
      "code" uniqueMessage).2 ⟨?_, rfl⟩,
    (Context.explain_uniqueFailed hdialect node htable (hcolumns _ (by decide)) hscript).2.2 ?_⟩
  · unfold Field.IsTaggedIn
    decide +kernel
  · unfold Field.IsTaggedIn
    decide +kernel

/-- A node is blamed for a code that is taken in another table. -/
theorem taken_detail_code_blamed_on_node :
    "ra_job_details" ≠ node.table ∧
    Context.explain ⟨.sqlite, .builtin⟩ node (.database (.reported
        ⟨some "2067", "UNIQUE constraint failed: ra_job_details.code", .unique, none⟩)) ≠
      .database (.reported
        ⟨some "2067", "UNIQUE constraint failed: ra_job_details.code", .unique, none⟩) := by
  refine ⟨by decide, ?_⟩
  intro h
  cases h

end

end RecordLayer
