import RecordLayer.Proofs.Migration.Resetting
import RecordLayer.Proofs.Store.Keys
import RecordLayer.Proofs.Store.Tearing

/-!
# Migrations — Whether a reset switches the keys on again

A reset switches the foreign keys off, drops the tables one by one, and switches the keys on again.
It ends at the first table that cannot be dropped, and then nothing switches them on: unless the
name of a table does it itself, they count afterwards exactly if the reset ends well
(`resetAll_restores_iff`).  That is the case if the quotes in the names stand in pairs, and it is
not if a name is torn.
-/

namespace RecordLayer
open Dialogue Sql Store Migration

namespace Store.Connection
variable {c c' : Connection} {sqls : List String} {x : Except Failure Unit}

/-! ### Statements one after another -/

/-- More statements are sent if all those before them were carried out. -/
theorem executeAll_append (sqls rest : List String) : Migrator.executeAll (sqls ++ rest) =
    Migrator.executeAll sqls >>= fun
      | .ok _ => Migrator.executeAll rest
      | .error failure => pure (.error failure) := by
  induction sqls with
  | nil => rfl
  | cons sql sqls ih =>
    refine congrArg (Dialogue.ask (Statement.execute sql [])) (funext fun x => ?_)
    cases x with
    | error failure => rfl
    | ok d => exact ih

/-- The parts of some texts. -/
def allParts (sqls : List String) : List Part :=
  sqls.flatMap fun sql => parts (.execute sql [])

theorem allParts_cons (sql : String) (sqls : List String) :
    allParts (sql :: sqls) = parts (.execute sql []) ++ allParts sqls :=
  List.flatMap_cons

/-- Texts are carried out up to the first statement that fails. -/
theorem run_executeAll_effects (hopen : c.closed = false)
    (h : run (Work.onStatements answer) (Migrator.executeAll sqls) c = (x, c')) :
    c'.closed = false ∧ ∃ done, done <+: allParts sqls ∧ (x = .ok () ↔ done = allParts sqls) ∧
      Effects Leaves done c.store c'.store := by
  induction sqls generalizing c with
  | nil =>
    cases h
    exact ⟨hopen, [], List.prefix_rfl, iff_of_true rfl rfl, .nil _⟩
  | cons sql sqls ih =>
    rcases hanswer : answerStatement (.execute sql []) c with ⟨r, t⟩
    obtain ⟨-, hclosed, done, hinitial, hok, heffects⟩ := answerStatement_effects hopen hanswer
    cases r with
    | error failure =>
      have hended : run (Work.onStatements answer) (Migrator.executeAll (sql :: sqls)) c =
          (.error failure, t) := by
        rw [Migrator.executeAll, run, Work.onStatements, answer, hanswer]
        rfl
      rw [hended] at h
      cases h
      refine ⟨hclosed.trans hopen, done, hinitial.trans (List.prefix_append _ _), ?_, heffects⟩
      refine iff_of_false (fun heq => by cases heq) fun heq => ?_
      -- nothing behind the text that failed is carried out, and not all of that text is
      have hall : done = parts (.execute sql []) := by
        refine hinitial.eq_of_length_le ?_
        rw [heq, allParts_cons, List.length_append]
        exact Nat.le_add_right _ _
      exact absurd (hok.2 hall) Bool.false_ne_true
    | ok d =>
      rw [run_executeAll_cons hanswer] at h
      obtain ⟨hclosed', done', hinitial', hok', heffects'⟩ := ih (hclosed.trans hopen) h
      obtain rfl := hok.1 rfl
      refine ⟨hclosed', _, List.prefix_append_right_inj _ |>.2 hinitial', ?_,
        heffects.append heffects'⟩
      rw [hok', allParts_cons, List.append_cancel_left_eq]

end Store.Connection

namespace Migration.Migrator
open Connection

variable {m : Migrator} {c : Connection} {names : List String}

/-! ### What stands between the switches -/

/-- The commands that the statements for some names spell, up to the first that cannot be read. -/
def reached (names : List String) : List (Option Command) :=
  (names.flatMap dropCommands).takeWhile Option.isSome

theorem map_allParts_dropNamed (names : List String) :
    (allParts (names.map dropNamed)).map (Command.ofLexemes? ·.2) =
      names.flatMap dropCommands := by
  rw [allParts, List.flatMap_map, List.map_flatMap]
  refine List.flatMap_congr fun name _ => ?_
  rw [parts, List.map_map, dropCommands]
  rfl

/-- Statements that are carried out are among those up to the first that cannot be read. -/
theorem mem_reached_of_effects {done : List Part} {db db' : Store}
    (hinitial : done <+: allParts (names.map dropNamed)) (h : Effects Leaves done db db') :
    ∀ part ∈ done, Command.ofLexemes? part.2 ∈ reached names := by
  obtain ⟨rest, hrest⟩ := hinitial.map (Command.ofLexemes? ·.2)
  rw [map_allParts_dropNamed] at hrest
  have hsome : ∀ command ∈ done.map (Command.ofLexemes? ·.2), Option.isSome command = true :=
    List.forall_mem_map.2 (isSome_of_effects h)
  intro part hpart
  rw [reached, ← hrest, List.takeWhile_append_of_pos hsome]
  exact List.mem_append_left _ (List.mem_map_of_mem hpart)

/-- Names whose quotes stand in pairs only drop tables, and a torn one cannot be read. -/
theorem eq_dropTable_of_mem_reached
    (hnames : ∀ name ∈ names, Paired '"' name.toList ∨ IsTorn name) :
    ∀ command ∈ reached names, ∃ table, command = some (.dropTable true table) := by
  induction names with
  | nil => exact List.forall_mem_nil _
  | cons name names ih =>
    obtain ⟨hname, hnames⟩ := List.forall_mem_cons.1 hnames
    rw [reached, List.flatMap_cons]
    rcases hname with hpaired | htorn
    · have hdrop : dropCommands name = [some (.dropTable true (singled name))] :=
        commands_dropNamed hpaired
      rw [hdrop]
      exact List.forall_mem_cons.2 ⟨⟨_, rfl⟩, ih hnames⟩
    · obtain ⟨others, hdrop⟩ := dropCommands_of_isTorn htorn
      rw [hdrop]
      exact List.forall_mem_nil _

theorem switchOn_not_mem_reached
    (hnames : ∀ name ∈ names, Paired '"' name.toList ∨ IsTorn name) :
    some (.foreignKeys true) ∉ reached names := by
  intro hmem
  obtain ⟨table, hdrop⟩ := eq_dropTable_of_mem_reached hnames _ hmem
  cases hdrop

/-! ### The switches -/

/-- What a reset leaves: the keys on if every table was dropped, and otherwise the store as it was
when the first table could not be. -/
theorem run_resetAll_ends (hdialect : m.context.dialect = .sqlite) (hopen : c.closed = false) :
    ∃ (x : Except Failure Unit) (c' : Connection) (done : List Part),
      run Connection.answer m.resetAll c =
        (x, { c' with store := ⟨c'.store.tables, x.toBool || c'.store.foreignKeys⟩ }) ∧
      done <+: allParts ((c.store.listed.map (·.name)).map dropNamed) ∧
      (x = .ok () ↔ done = allParts ((c.store.listed.map (·.name)).map dropNamed)) ∧
      Effects Leaves done ⟨c.store.tables, false⟩ c'.store := by
  have hoff : ({ c with store := ⟨c.store.tables, false⟩ } : Connection).closed = false := hopen
  rw [resetAll, hdialect, Work.run_ofSession, run_dropEverything_eq hopen]
  rcases hdrops : run (Work.onStatements Connection.answer)
    (executeAll ((c.store.listed.map (·.name)).map dropNamed))
    { c with store := ⟨c.store.tables, false⟩ } with ⟨x, c'⟩
  obtain ⟨hclosed, done, hinitial, hok, heffects⟩ := run_executeAll_effects hoff hdrops
  refine ⟨x, c', done, ?_, hinitial, hok, heffects⟩
  rw [executeAll_append, run_andThen, hdrops]
  cases x with
  | error failure => rfl
  | ok _ => exact run_executeAll_cons (answer_execute hclosed commands_switchOn rfl)

theorem foreignKeys_resetAll_of_ok (hdialect : m.context.dialect = .sqlite)
    (hopen : c.closed = false) (hok : (run Connection.answer m.resetAll c).1 = .ok ()) :
    (run Connection.answer m.resetAll c).2.store.foreignKeys = true := by
  obtain ⟨x, c', done, hrun, -⟩ := run_resetAll_ends hdialect hopen
  rw [hrun] at hok ⊢
  obtain rfl : x = .ok () := hok
  rfl

/-- If no name switches the keys on, they are off after a reset that ends badly. -/
theorem foreignKeys_resetAll_of_error (hdialect : m.context.dialect = .sqlite)
    (hopen : c.closed = false)
    (hswitch : some (.foreignKeys true) ∉ reached (c.store.listed.map (·.name)))
    (herror : (run Connection.answer m.resetAll c).1 ≠ .ok ()) :
    (run Connection.answer m.resetAll c).2.store.foreignKeys = false := by
  obtain ⟨x, c', done, hrun, hinitial, -, heffects⟩ := run_resetAll_ends hdialect hopen
  have hleft : c'.store.foreignKeys = false := by
    refine foreignKeys_of_effects heffects rfl fun part hpart heq => hswitch ?_
    have hreached := mem_reached_of_effects hinitial heffects part hpart
    rwa [heq] at hreached
  rw [hrun] at herror ⊢
  cases x with
  | ok _ => exact absurd rfl herror
  | error failure => exact hleft

/-- A reset in which a name is torn ends badly. -/
theorem resetAll_ne_ok_of_isTorn (hdialect : m.context.dialect = .sqlite)
    (hopen : c.closed = false) {t : Table} (ht : t ∈ c.store.listed) (htorn : IsTorn t.name) :
    (run Connection.answer m.resetAll c).1 ≠ .ok () := by
  obtain ⟨x, c', done, hrun, -, hok, heffects⟩ := run_resetAll_ends hdialect hopen
  rw [hrun]
  intro hx
  obtain ⟨others, hdrop⟩ := dropCommands_of_isTorn htorn
  have hall := congrArg (List.map (Command.ofLexemes? ·.2)) (hok.1 hx)
  rw [map_allParts_dropNamed] at hall
  have hnone : none ∈ done.map (Command.ofLexemes? ·.2) := by
    rw [hall]
    refine List.mem_flatMap.2 ⟨t.name, List.mem_map_of_mem ht, ?_⟩
    rw [hdrop]
    exact List.mem_cons_self
  obtain ⟨part, hpart, hread⟩ := List.mem_map.1 hnone
  have hsome := isSome_of_effects heffects part hpart
  rw [hread] at hsome
  cases hsome

/-- **A reset that ends well leaves the connection's keys as they were.**  One that ends badly
leaves them off, unless the name of a table switches them on.  If the names have their quotes in
pairs or are torn, it comes down to the names: the keys are as they were exactly if none is torn,
and exactly then the reset ends well. -/
theorem resetAll_restores_iff (hdialect : m.context.dialect = .sqlite) (hopen : c.closed = false)
    (hkeys : c.store.foreignKeys = true) :
    let names := c.store.listed.map (·.name)
    let ended := run Connection.answer m.resetAll c
    let restored := ended.2.store.foreignKeys = c.store.foreignKeys
    (ended.1 = .ok () → restored) ∧
    (some (.foreignKeys true) ∉ reached names → (restored ↔ ended.1 = .ok ())) ∧
    ((∀ name ∈ names, Paired '"' name.toList ∨ IsTorn name) →
      (restored ↔ ∀ name ∈ names, Paired '"' name.toList) ∧
      (ended.1 = .ok () ↔ ∀ name ∈ names, Paired '"' name.toList)) := by
  intro names ended restored
  have hended : ended.1 = .ok () → restored := by
    intro hok
    exact (foreignKeys_resetAll_of_ok hdialect hopen hok).trans hkeys.symm
  have hswitch : some (.foreignKeys true) ∉ reached names → (restored ↔ ended.1 = .ok ()) := by
    intro hnone
    refine ⟨fun hrestored => Classical.by_contradiction fun herror => ?_, hended⟩
    have hoff := foreignKeys_resetAll_of_error hdialect hopen hnone herror
    exact Bool.false_ne_true (hoff.symm.trans (hrestored.trans hkeys))
  refine ⟨hended, hswitch, fun hnames => ?_⟩
  have hpaired : ended.1 = .ok () ↔ ∀ name ∈ names, Paired '"' name.toList := by
    constructor
    · intro hok name hname
      obtain ⟨t, ht, rfl⟩ := List.mem_map.1 hname
      refine (hnames _ hname).resolve_right fun htorn => ?_
      exact resetAll_ne_ok_of_isTorn hdialect hopen ht htorn hok
    · intro hall
      exact congrArg Prod.fst (run_resetAll hdialect hopen fun t ht =>
        hall _ (List.mem_map_of_mem ht))
  exact ⟨(hswitch (switchOn_not_mem_reached hnames)).trans hpaired, hpaired⟩

/-- The second of these names is torn. -/
def tornNames : List String :=
  ["jobs", "a\"b"]

theorem isTorn_of_letters : IsTorn "a\"b" :=
  ⟨['a'], ['b'], 'b', ['"'], rfl, .of_not_mem (by simp), by simp, rfl, by simp, by simp⟩

theorem resetAll_tornNames_unrestored :
    let names := (stocked tornNames).store.listed.map (·.name)
    let ended := run Connection.answer resetter.resetAll (stocked tornNames)
    let restored := ended.2.store.foreignKeys = (stocked tornNames).store.foreignKeys
    resetter.context.dialect = .sqlite ∧ (stocked tornNames).closed = false ∧
      (stocked tornNames).store.foreignKeys = true ∧ some (.foreignKeys true) ∉ reached names ∧
      (∀ name ∈ names, Paired '"' name.toList ∨ IsTorn name) ∧ ended.1 ≠ .ok () ∧ ¬ restored ∧
      ¬ ∀ name ∈ names, Paired '"' name.toList := by
  have heq : (stocked tornNames).store.listed.map (·.name) = tornNames := by decide
  have hjobs : Paired '"' "jobs".toList := .of_not_mem (by simp)
  have hnames : ∀ name ∈ tornNames, Paired '"' name.toList ∨ IsTorn name :=
    List.forall_mem_cons.2 ⟨.inl hjobs, List.forall_mem_singleton.2 (.inr isTorn_of_letters)⟩
  have hnone := switchOn_not_mem_reached hnames
  obtain ⟨-, hswitch, hpaired⟩ :=
    resetAll_restores_iff (m := resetter) (c := stocked tornNames) rfl rfl rfl
  have hlast : Table.ofColumns "a\"b" [] ∈ (stocked tornNames).store.listed := by decide
  have herror := resetAll_ne_ok_of_isTorn (m := resetter) (c := stocked tornNames) rfl rfl hlast
    isTorn_of_letters
  rw [heq] at hswitch hpaired
  refine ⟨rfl, rfl, rfl, heq ▸ hnone, heq ▸ hnames, herror, ?_, ?_⟩
  · exact fun hrestored => herror ((hswitch hnone).1 hrestored)
  · rw [heq]
    exact fun hall => herror ((hpaired hnames).2.2 hall)

/-- After a reset that ends at a torn name the keys are off. -/
theorem resetAll_leaves_keys_off :
    let ended := run Connection.answer resetter.resetAll (stocked ["a\"b"])
    (stocked ["a\"b"]).store.foreignKeys = true ∧ ended.1.toBool = false ∧
      ended.2.store.foreignKeys = false := by
  decide +kernel

end Migration.Migrator

end RecordLayer
