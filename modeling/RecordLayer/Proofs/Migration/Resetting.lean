import Mathlib.Data.Finset.Dedup
import Mathlib.Data.Finset.Max
import RecordLayer.Migration.Migrator
import RecordLayer.Proofs.Store.Quoting
import RecordLayer.Proofs.Transaction

/-!
# Migrations — What a reset leaves

A reset asks for the names of the tables and drops them one by one.  The store keeps names that
begin with `sqlite_` for itself, and these are to be left out, but in the pattern that does so the
underscore stands for any character: a table `sqlitejobs` is left out too.  The names are then put
between double quotes as they stand, so that a quote in a name makes it another one, and a table
whose name has quotes is left unless it is another table's other name.  So no other tables are left
exactly if there are neither such names nor such quotes (`resetAll_leaves_iff`).  The quotes have to
stand in pairs: a lone one ends the name, and what follows it is read as more of the statement.
-/

namespace RecordLayer
open Text Dialogue Sql Migration

namespace Store
variable {s front pattern : List Char}

/-! ### Names that match a pattern -/

theorem like_append (hany : '%' ∉ front) (hone : '_' ∉ front) :
    like (front ++ pattern) s = true ↔
      folded front <+: folded s ∧ like pattern (s.drop front.length) = true := by
  induction front generalizing s with
  | nil => exact (and_iff_right List.nil_prefix).symm
  | cons p front ih =>
    have hpany : p ≠ '%' := (List.ne_of_not_mem_cons hany).symm
    have hpone : p ≠ '_' := (List.ne_of_not_mem_cons hone).symm
    cases s with
    | nil => simp [like, folded]
    | cons c s =>
      have hrest := @ih s (List.not_mem_of_not_mem_cons hany) (List.not_mem_of_not_mem_cons hone)
      simp [like, folded, hrest, and_assoc]

theorem like_any (s : List Char) : like ['%'] s = true := by
  rw [like, List.any_eq_true]
  induction s with
  | nil => exact ⟨[], List.mem_singleton_self _, rfl⟩
  | cons c s ih =>
    obtain ⟨u, hu, hlike⟩ := ih
    exact ⟨u, List.mem_cons_of_mem _ hu, hlike⟩

theorem like_one_any (s : List Char) : like ['_', '%'] s = true ↔ s ≠ [] := by
  cases s with
  | nil => exact iff_of_false Bool.false_ne_true (fun h => h rfl)
  | cons c s => exact iff_of_true (like_any s) (List.cons_ne_nil c s)

/-- The underscore in the pattern stands for any character. -/
theorem like_sqlite_iff (s : List Char) : like "sqlite_%".toList s = true ↔
    "sqlite".toList <+: folded s ∧ 6 < s.length := by
  have hpattern : "sqlite_%".toList = "sqlite".toList ++ ['_', '%'] := rfl
  rw [hpattern, like_append (by decide) (by decide), like_one_any, ne_eq, List.drop_eq_nil_iff,
    not_le]
  rfl

theorem like_sqlite_of_sameName {a b : String} (h : sameName a b = true)
    (ha : like "sqlite_%".toList a.toList = true) : like "sqlite_%".toList b.toList = true := by
  rw [like_sqlite_iff, ← length_folded] at ha ⊢
  rwa [← folded_eq_of_sameName h]

/-- Single quotes where there were doubled ones do not make a name match. -/
theorem like_sqlite_of_undoubled (hs : Paired '"' s)
    (h : like "sqlite_%".toList (undoubled '"' s) = true) : like "sqlite_%".toList s = true := by
  rw [like_sqlite_iff] at h ⊢
  obtain ⟨hbegins, hlength⟩ := h
  refine ⟨?_, hlength.trans_le (length_undoubled_le hs)⟩
  obtain ⟨front, hfront, hfolded⟩ := List.prefix_map_iff.1 hbegins
  have hquote : '"' ∉ front := by
    intro hmem
    have hletter : '"' ∈ "sqlite".toList := by
      rw [hfolded]
      exact List.mem_map_of_mem hmem
    exact absurd hletter (by decide)
  exact List.prefix_map_iff.2 ⟨front, prefix_of_prefix_undoubled hquote hs hfront, hfolded⟩

/-! ### The names of the tables -/

/-- The store keeps names that begin with `sqlite_` for itself. -/
def Table.isReserved (t : Table) : Bool :=
  beginsWith "sqlite_".toList (folded t.name.toList)

/-- A reset does not ask for the table's name. -/
def Table.isPassedOver (t : Table) : Bool :=
  like "sqlite_%".toList t.name.toList

/-- The tables whose names a reset asks for. -/
def listed (s : Store) : List Table :=
  s.tables.filter (!·.isPassedOver)

theorem mem_listed {s : Store} {t : Table} :
    t ∈ s.listed ↔ t ∈ s.tables ∧ t.isPassedOver = false := by
  rw [listed, List.mem_filter, Bool.not_eq_true']

theorem Table.isPassedOver_of_isReserved {t : Table} (h : t.isReserved = true) :
    t.isPassedOver = true := by
  obtain ⟨rest, hrest⟩ := Option.isSome_iff_exists.1 h
  have hname := afterMark?_eq_some_iff.1 hrest
  refine (like_sqlite_iff _).2 ⟨⟨'_' :: rest, hname.symm⟩, ?_⟩
  rw [← length_folded, hname, List.length_append]
  exact Nat.lt_add_right rest.length (Nat.lt_succ_self 6)

/-- A table that is dropped under a name is not passed over. -/
theorem Table.isPassedOver_of_sameName_singled {t u : Table} (hu : Paired '"' u.name.toList)
    (h : sameName t.name (singled u.name) = true) (ht : t.isPassedOver = true) :
    u.isPassedOver = true := by
  have hsingled := like_sqlite_of_sameName h ht
  rw [toList_singled] at hsingled
  exact like_sqlite_of_undoubled hu hsingled

theorem isMaster_singled {t : Table} (ht : Paired '"' t.name.toList)
    (hlisted : t.isPassedOver = false) : isMaster (singled t.name) = false := by
  have hname : ∀ name : String, like "sqlite_%".toList name.toList = true →
      sameName (singled t.name) name = false := by
    intro name hlike
    refine Bool.eq_false_iff.2 fun hsame => ne_true_of_eq_false hlisted ?_
    have hsingled := like_sqlite_of_sameName ((sameName_comm _ _).trans hsame) hlike
    rw [toList_singled] at hsingled
    exact like_sqlite_of_undoubled ht hsingled
  rw [isMaster, hname _ (by decide), hname _ (by decide)]
  rfl

/-- The store without the tables of some names. -/
def removeAll (s : Store) (names : List String) : Store :=
  { s with tables := s.tables.filter fun t => !names.any (sameName t.name) }

/-- What a reset asks for. -/
def listingQuery : String :=
  "SELECT name FROM sqlite_master WHERE type = 'table' AND name NOT LIKE 'sqlite_%'"

/-- Its condition. -/
def isListed : Expr :=
  .both (.compared .equal (.column none "type" false) (.literal (.text "table")))
    (.compared .notLike (.column none "name" false) (.literal (.text "sqlite_%")))

/-- A table in the list of tables. -/
def Table.asEntry (t : Table) : Entry :=
  ⟨0, [.text "table", .text t.name, .text t.name]⟩

theorem commands_listingQuery : (commands (lexed listingQuery)).map Command.ofLexemes? =
    [some (.select [.value (.column none "name" false) none "name"] (some ⟨"sqlite_master", none⟩)
      (some isListed) [])] := by
  decide +kernel

theorem truth?_ofTruth (o : Option Bool) : (Datum.ofTruth o).truth? = o := by
  rcases o with _ | _ | _ <;> decide +kernel

theorem truth?_isListed (s : Store) (t : Table) :
    (s.master.valueOf [] t.asEntry isListed).truth? = some (!t.isPassedOver) := by
  have htype : Expr.eval s.master [] [] (some t.asEntry)
      (.compared .equal (.column none "type" false) (.literal (.text "table"))) =
      .ofTruth (some true) := rfl
  have hname : Expr.eval s.master [] [] (some t.asEntry)
      (.compared .notLike (.column none "name" false) (.literal (.text "sqlite_%"))) =
      .ofTruth (some (!t.isPassedOver)) := rfl
  rw [isListed, Table.valueOf, Expr.eval, htype, hname, truth?_ofTruth, truth?_ofTruth,
    truth?_ofTruth]
  cases t.isPassedOver <;> rfl

theorem inOrderOf_nil (t : Table) (values : List Datum) (rows : List Entry) :
    t.inOrderOf values rows [] = rows :=
  List.mergeSort_of_pairwise (List.pairwise_of_forall fun _ _ => rfl)

theorem select_listed (s : Store) : s.select [] [.value (.column none "name" false) none "name"]
    (some ⟨"sqlite_master", none⟩) (some isListed) [] =
      .ok ⟨s, s.listed.map fun t => [("name", .text t.name)], none⟩ := by
  have hselect : s.select [] [.value (.column none "name" false) none "name"]
      (some ⟨"sqlite_master", none⟩) (some isListed) [] =
        .ok ⟨s, (s.master.inOrderOf [] (s.master.matching [] (some isListed)) []).map fun row =>
          s.master.project [] [row] (some row) [("name", .column none "name" false)], none⟩ := rfl
  have hmatching : s.master.matching [] (some isListed) = s.listed.map Table.asEntry := by
    have hrows : s.master.rows = s.tables.map Table.asEntry := rfl
    rw [Table.matching, hrows, List.filter_map, listed]
    refine congrArg _ (List.filter_congr fun t _ => ?_)
    rw [Function.comp_apply, truth?_isListed]
    cases t.isPassedOver <;> rfl
  rw [hselect, inOrderOf_nil, hmatching, List.map_map]
  rfl

/-! ### Dropping a table -/

theorem removeAll_nil (s : Store) : s.removeAll [] = s := by
  have hall : s.tables.filter (fun t => !List.any [] (sameName t.name)) = s.tables :=
    List.filter_eq_self.2 fun _ _ => rfl
  rw [removeAll, hall]

theorem removeAll_remove (s : Store) (name : String) (names : List String) :
    (s.remove name).removeAll names = s.removeAll (name :: names) := by
  rw [removeAll, removeAll, remove, List.filter_filter]
  simp only [List.any_cons, Bool.not_or, Bool.and_comm]

theorem remove_of_table?_eq_none {s : Store} {name : String} (h : s.table? name = none) :
    s.remove name = s := by
  have hall : s.tables.filter (!sameName ·.name name) = s.tables := by
    rw [List.filter_eq_self]
    intro t ht
    simpa using List.find?_eq_none.1 h t ht
  rw [remove, hall]

theorem dropTable_eq {s : Store} {name : String} (hkeys : s.foreignKeys = false)
    (hmaster : isMaster name = false) :
    s.dropTable true name = .ok ⟨s.remove name, [], none⟩ := by
  rw [dropTable, hmaster]
  cases htable : s.table? name with
  | none => rw [remove_of_table?_eq_none htable]; rfl
  | some t => rw [hkeys]; rfl

namespace Connection
variable {c : Connection}

theorem send_of_command {sql : String} {command : Command} {effect : Effect}
    (hopen : c.closed = false)
    (hcommand : (commands (lexed sql)).map Command.ofLexemes? = [some command])
    (hdone : c.store.execute [] command = .ok effect) (hchanged : effect.changed = none) :
    c.send sql [] = (⟨{ c with store := effect.store }, effect.rows, c.lastChanged⟩, none) := by
  obtain ⟨ls, hls, hread⟩ := List.map_eq_singleton_iff.1 hcommand
  rw [send, if_neg (ne_true_of_eq_false hopen), hls]
  simp only [List.map_nil, carryOut, hread, hdone, hchanged, Option.getD_none, List.nil_append,
    Nat.zero_add]

theorem answer_execute {sql : String} {command : Command} {s : Store} (hopen : c.closed = false)
    (hcommand : (commands (lexed sql)).map Command.ofLexemes? = [some command])
    (hdone : c.store.execute [] command = .ok ⟨s, [], none⟩) :
    Work.onStatements answer (.execute sql []) c =
      (.ok ⟨c.lastChanged, none⟩, { c with store := s }) := by
  change answerStatement (.execute sql []) c = _
  rw [answerStatement, send_of_command hopen hcommand hdone rfl]
  rfl

theorem run_listing (hopen : c.closed = false) :
    run (Work.onStatements answer) (Session.fetch listingQuery []) c =
      (.ok (c.store.listed.map fun t => [("name", .text t.name)]), c) := by
  change answerStatement (.fetch listingQuery []) c = _
  rw [answerStatement, send_of_command hopen commands_listingQuery (select_listed c.store) rfl]
  rfl

theorem run_executeAll_cons {sql : String} {rest : List String} {d : Done} {c' : Connection}
    (h : Work.onStatements answer (.execute sql []) c = (.ok d, c')) :
    run (Work.onStatements answer) (Migrator.executeAll (sql :: rest)) c =
      run (Work.onStatements answer) (Migrator.executeAll rest) c' := by
  rw [Migrator.executeAll, run, h]

/-- The tables of some names are dropped, and then comes the rest. -/
theorem run_executeAll_drops {names rest : List String} (hopen : c.closed = false)
    (hkeys : c.store.foreignKeys = false)
    (hnames : ∀ name ∈ names, Paired '"' name.toList ∧ isMaster (singled name) = false) :
    run (Work.onStatements answer) (Migrator.executeAll (names.map dropNamed ++ rest)) c =
      run (Work.onStatements answer) (Migrator.executeAll rest)
        { c with store := c.store.removeAll (names.map singled) } := by
  induction names generalizing c with
  | nil => rw [List.map_nil, List.map_nil, List.nil_append, removeAll_nil]
  | cons name names ih =>
    obtain ⟨⟨hpaired, hmaster⟩, hnames⟩ := List.forall_mem_cons.1 hnames
    rw [List.map_cons, List.cons_append, run_executeAll_cons (answer_execute hopen
      (commands_dropNamed hpaired) (dropTable_eq hkeys hmaster))]
    rw [@ih { c with store := c.store.remove (singled name) } hopen hkeys hnames,
      removeAll_remove, List.map_cons]

theorem mapM_nameOf (tables : List Table) :
    (tables.map fun t => ([("name", .text t.name)] : Row)).mapM Migrator.nameOf =
      .ok (tables.map (·.name)) := by
  induction tables with
  | nil => rfl
  | cons t tables ih =>
    rw [List.map_cons, List.mapM_cons, ih]
    rfl

theorem commands_switchOn :
    (commands (lexed "PRAGMA foreign_keys = ON")).map Command.ofLexemes? =
      [some (.foreignKeys true)] := by
  decide +kernel

/-- The names are asked for and the keys switched off before anything is dropped. -/
theorem run_dropEverything_eq (hopen : c.closed = false) :
    run (Work.onStatements answer) (Migrator.dropEverything .sqlite) c =
      run (Work.onStatements answer) (Migrator.executeAll
        ((c.store.listed.map (·.name)).map dropNamed ++ ["PRAGMA foreign_keys = ON"]))
        { c with store := ⟨c.store.tables, false⟩ } := by
  have hoff : (commands (lexed "PRAGMA foreign_keys = OFF")).map Command.ofLexemes? =
      [some (.foreignKeys false)] := by decide +kernel
  have hdrops : ∀ names : List String, Migrator.dropTables "PRAGMA foreign_keys = OFF"
      "PRAGMA foreign_keys = ON" "\"" names =
        "PRAGMA foreign_keys = OFF" :: (names.map dropNamed ++ ["PRAGMA foreign_keys = ON"]) :=
    fun names => rfl
  change run _ (Migrator.dropListed listingQuery (Migrator.dropTables _ _ "\"")) c = _
  rw [Migrator.dropListed, run_andThen, run_listing hopen]
  simp only [mapM_nameOf, hdrops]
  exact run_executeAll_cons (answer_execute hopen hoff rfl)

theorem run_dropEverything (hopen : c.closed = false)
    (hnames : ∀ t ∈ c.store.listed, Paired '"' t.name.toList ∧ isMaster (singled t.name) = false) :
    run (Work.onStatements answer) (Migrator.dropEverything .sqlite) c =
      (.ok (), { c with store := ⟨(c.store.removeAll
        (c.store.listed.map (singled ·.name))).tables, true⟩ }) := by
  rw [run_dropEverything_eq hopen,
    @run_executeAll_drops { c with store := ⟨c.store.tables, false⟩ } _ _ hopen rfl
      (List.forall_mem_map.2 hnames), List.map_map]
  exact run_executeAll_cons (answer_execute hopen commands_switchOn rfl)

end Connection

/-! ### The tables that are left -/

/-- Of the names with quotes a longest one is none of them with the quotes single. -/
theorem exists_not_dropped {s : Store} (hpaired : ∀ t ∈ s.listed, Paired '"' t.name.toList)
    {t : Table} (ht : t ∈ s.listed) (hquote : '"' ∈ t.name.toList) :
    ∃ u ∈ s.listed, ∀ v ∈ s.listed, sameName u.name (singled v.name) = false := by
  let quoted := s.listed.toFinset.filter fun t => '"' ∈ t.name.toList
  have hmem : ∀ {u}, u ∈ quoted ↔ u ∈ s.listed ∧ '"' ∈ u.name.toList := by
    intro u
    rw [Finset.mem_filter, List.mem_toFinset]
  obtain ⟨u, hu, hlongest⟩ :=
    quoted.exists_max_image (·.name.toList.length) ⟨t, hmem.2 ⟨ht, hquote⟩⟩
  obtain ⟨hlisted, huquote⟩ := hmem.1 hu
  refine ⟨u, hlisted, fun v hv => Bool.eq_false_iff.2 fun hsame => ?_⟩
  have hfolded : folded u.name.toList = folded (undoubled '"' v.name.toList) := by
    rw [← toList_singled]
    exact folded_eq_of_sameName hsame
  have hvquote : '"' ∈ v.name.toList := by
    rwa [← mem_undoubled_iff (hpaired v hv), ← mem_folded_iff (by decide), ← hfolded,
      mem_folded_iff (by decide)]
  have hlength : u.name.toList.length = (undoubled '"' v.name.toList).length := by
    rw [← length_folded, hfolded, length_folded]
  have hshorter := length_undoubled_lt (hpaired v hv) hvquote
  have hlonger := hlongest v (hmem.2 ⟨hv, hvquote⟩)
  omega

theorem mem_tables_removeAll_listed {s : Store} {t : Table} :
    t ∈ (s.removeAll (s.listed.map (singled ·.name))).tables ↔
      t ∈ s.tables ∧ ∀ u ∈ s.listed, sameName t.name (singled u.name) = false := by
  rw [removeAll, List.mem_filter, Bool.not_eq_true', List.any_map, List.any_eq_false]
  simp only [Function.comp_apply, Bool.not_eq_true]

theorem forall_left_isReserved_iff {s : Store}
    (hpaired : ∀ t ∈ s.listed, Paired '"' t.name.toList) :
    (∀ t ∈ (s.removeAll (s.listed.map (singled ·.name))).tables, t.isReserved = true) ↔
      ∀ t ∈ s.tables, t.isReserved = true ∨ t.isPassedOver = false ∧ '"' ∉ t.name.toList := by
  constructor
  · intro h t ht
    refine or_iff_not_imp_left.2 fun hreserved => ?_
    have hlisted : t.isPassedOver = false := by
      refine Bool.eq_false_iff.2 fun hpassed => hreserved (h t (mem_tables_removeAll_listed.2
        ⟨ht, fun u hu => Bool.eq_false_iff.2 fun hsame => ?_⟩))
      exact ne_true_of_eq_false (mem_listed.1 hu).2
        (Table.isPassedOver_of_sameName_singled (hpaired u hu) hsame hpassed)
    refine ⟨hlisted, fun hquote => ?_⟩
    obtain ⟨u, hu, hkept⟩ := exists_not_dropped hpaired (mem_listed.2 ⟨ht, hlisted⟩) hquote
    obtain ⟨humem, hulisted⟩ := mem_listed.1 hu
    have hureserved := h u (mem_tables_removeAll_listed.2 ⟨humem, hkept⟩)
    exact ne_true_of_eq_false hulisted (Table.isPassedOver_of_isReserved hureserved)
  · intro h t ht
    obtain ⟨hmem, hkept⟩ := mem_tables_removeAll_listed.1 ht
    refine (h t hmem).resolve_right fun ⟨hlisted, hquote⟩ => ?_
    have hdropped := hkept t (mem_listed.2 ⟨hmem, hlisted⟩)
    rw [singled_of_not_mem hquote, sameName_refl] at hdropped
    cases hdropped

end Store

namespace Migration.Migrator
open Store Connection

variable {m : Migrator} {c : Connection}

theorem run_resetAll (hdialect : m.context.dialect = .sqlite) (hopen : c.closed = false)
    (hpaired : ∀ t ∈ c.store.listed, Paired '"' t.name.toList) :
    run Connection.answer m.resetAll c = (.ok (), { c with store := ⟨(c.store.removeAll
      (c.store.listed.map (singled ·.name))).tables, true⟩ }) := by
  rw [resetAll, hdialect, Work.run_ofSession]
  exact run_dropEverything hopen fun t ht =>
    ⟨hpaired t ht, isMaster_singled (hpaired t ht) (mem_listed.1 ht).2⟩

/-- A reset of tables whose names have their quotes in pairs ends well.  It drops the tables whose
names are those that it asks for with the quotes single, and none but reserved tables are left
exactly if it asks for the names of all others and none of them has a quote. -/
theorem resetAll_leaves_iff (hdialect : m.context.dialect = .sqlite) (hopen : c.closed = false)
    (hpaired : ∀ t ∈ c.store.listed, Paired '"' t.name.toList) :
    ∃ left, run Connection.answer m.resetAll c = (.ok (), { c with store := ⟨left, true⟩ }) ∧
      (∀ t, t ∈ left ↔ t ∈ c.store.tables ∧
        ∀ u ∈ c.store.listed, sameName t.name (singled u.name) = false) ∧
      ((∀ t ∈ left, t.isReserved = true) ↔ ∀ t ∈ c.store.tables,
        t.isReserved = true ∨ t.isPassedOver = false ∧ '"' ∉ t.name.toList) :=
  ⟨_, run_resetAll hdialect hopen hpaired, fun _ => mem_tables_removeAll_listed,
    forall_left_isReserved_iff hpaired⟩

/-! ### Tables that a reset leaves -/

/-- A migrator that starts by dropping everything. -/
def resetter : Migrator :=
  ⟨⟨.sqlite, .builtin⟩, ⟨"migrations", none⟩, true⟩

/-- A connection to a store with some tables. -/
def stocked (names : List String) : Connection :=
  ⟨⟨names.map (Table.ofColumns · []), true⟩, none, 0, false⟩

/-- The second of these names is not asked for, and the third is read as another one. -/
def oddNames : List String :=
  ["jobs", "sqlitejobs", "a\"\"b"]

theorem listed_oddNames :
    (stocked oddNames).store.listed = (stocked ["jobs", "a\"\"b"]).store.tables := by
  decide

theorem resetAll_leaves_oddNames :
    resetter.context.dialect = .sqlite ∧ (stocked oddNames).closed = false ∧
      (∀ t ∈ (stocked oddNames).store.listed, Paired '"' t.name.toList) ∧
      ∃ left, run Connection.answer resetter.resetAll (stocked oddNames) =
          (.ok (), { stocked oddNames with store := ⟨left, true⟩ }) ∧
        (∀ t, t ∈ left ↔ t ∈ (stocked oddNames).store.tables ∧
          ∀ u ∈ (stocked oddNames).store.listed, sameName t.name (singled u.name) = false) ∧
        ((∀ t ∈ left, t.isReserved = true) ↔ ∀ t ∈ (stocked oddNames).store.tables,
          t.isReserved = true ∨ t.isPassedOver = false ∧ '"' ∉ t.name.toList) := by
  have hpaired : ∀ t ∈ (stocked oddNames).store.listed, Paired '"' t.name.toList := by
    rw [listed_oddNames]
    refine List.forall_mem_cons.2 ⟨?_, List.forall_mem_singleton.2 ?_⟩
    · exact .char (by decide) (.char (by decide) (.char (by decide) (.char (by decide) .nil)))
    · exact .char (by decide) (.pair (.char (by decide) .nil))
  exact ⟨rfl, rfl, hpaired, resetAll_leaves_iff rfl rfl hpaired⟩

/-- A table whose name goes on with another character than the underscore is left. -/
theorem sqlitejobs_left :
    run Connection.answer resetter.resetAll (stocked ["sqlitejobs"]) =
        (.ok (), stocked ["sqlitejobs"]) ∧
      ¬ ∀ t ∈ (stocked ["sqlitejobs"]).store.tables, t.isReserved = true := by
  have hlisted : (stocked ["sqlitejobs"]).store.listed = [] := by decide
  refine ⟨?_, by decide⟩
  rw [run_resetAll rfl rfl (by rw [hlisted]; exact List.forall_mem_nil _), hlisted, List.map_nil,
    removeAll_nil]
  rfl

end Migration.Migrator

end RecordLayer
