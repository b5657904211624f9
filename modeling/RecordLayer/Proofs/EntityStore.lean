import Mathlib.Data.List.Sublists
import RecordLayer.Catalog
import RecordLayer.Proofs.Storage
import RecordLayer.Proofs.Writing

/-!
# Backends that store an entity's records

What is asked of a backend so that the records written through it can be read back: when it
carries out an insert, the row of a new key holds the values bound to the listed columns and
nothing else, and when it carries out an update, the listed columns of the row hold the values bound
to them (`EntityStore`).  `jobStore` is such a backend: it keeps jobs in memory, and knows their
statements by their texts.
-/

namespace RecordLayer
open Dialogue

/-- The fields that a statement may list: stored ones that are no keys, each once. -/
def Entity.IsListing (e : Entity) (positions : List e.Position) : Prop :=
  positions.Sublist e.positions ∧
    ∀ i ∈ positions, (e.field i).isPersistable = true ∧ (e.field i).identity = false

/-- The cells of a new row: the listed columns hold the values bound to them, the key its number,
and the other columns nothing. -/
structure Record.Fills {e : Entity} (requested : Record e) (positions : List e.Position)
    (key : e.Position) (id : Int64) (cells : e.Position → Cell) : Prop where
  listed : ∀ i ∈ positions, ReadsBack (requested.value i) (cells i)
  keyed : cells key = .int id
  others : ∀ i ∉ positions, i ≠ key → (e.field i).isPersistable = true →
    (e.field i).kind.Holds (e.field i).kind.empty (cells i)

/-- A backend that keeps a table of an entity's records, as far as statements that write records
are carried out.  What it answers to others, and when it fails, is left open. -/
structure EntityStore (ctx : Context) (e : Entity) (key : e.Position) where
  State : Type
  answer : Answerer Statement Statement.Answer State
  /-- The cells of the row that has a key. -/
  stored : State → Int64 → Option (e.Position → Cell)
  /-- An insert that returns its key. -/
  fetch_insert : ∀ {s s' requested positions rows}, e.IsListing positions →
    ctx.returning? e ≠ none →
    answer (.fetch (ctx.insertSql requested positions) (positions.map requested.value)) s =
      (.ok rows, s') →
    ∃ column id cells, rows = [[(column, .int id)]] ∧ id ≠ 0 ∧ stored s id = none ∧
      stored s' id = some cells ∧ requested.Fills positions key id cells
  /-- An insert that reports its key. -/
  execute_insert : ∀ {s s' requested positions done}, e.IsListing positions →
    ctx.returning? e = none →
    answer (.execute (ctx.insertSql requested positions) (positions.map requested.value)) s =
      (.ok done, s') →
    ∃ id cells, done.lastId = some id ∧ id ≠ 0 ∧ stored s id = none ∧
      stored s' id = some cells ∧ requested.Fills positions key id cells
  /-- An update that reaches its row. -/
  execute_update : ∀ {s s' requested positions id done}, e.IsListing positions →
    answer (.execute (ctx.updateSql requested positions key (.int id))
      (positions.map requested.value ++ [.int id])) s = (.ok done, s') →
    done.affected ≠ 0 →
    ∀ old, stored s id = some old → ∃ new, stored s' id = some new ∧
      (∀ i ∈ positions, ReadsBack (requested.value i) (new i)) ∧
      ∀ i ∉ positions, new i = old i

theorem Record.isListing_contributing {e : Entity} (mode : DiffMode)
    (current requested : Record e) : e.IsListing (contributing mode current requested) :=
  ⟨List.filter_sublist, fun _ hi => isPersistable_of_contributes (mem_contributing.1 hi)⟩

/-! ### Jobs kept in memory -/

/-- In a dialect whose placeholders are alike, a statement depends on the number of its values
only. -/
theorem slots_sqlite (n : Nat) (values : List Value) :
    Sql.slots .sqlite n values = values.map fun _ => "?" := by
  induction values generalizing n with
  | nil => rfl
  | cons v values ih => cases v <;> exact congrArg ("?" :: ·) (ih (n + 1))

theorem lookup_zip_map {α β : Type} [BEq α] [LawfulBEq α] (f : α → β) (keys : List α) (a : α) :
    (keys.zip (keys.map f)).lookup a = if keys.contains a then some (f a) else none := by
  induction keys with
  | nil => rfl
  | cons k keys ih =>
    rw [List.map_cons, List.zip_cons_cons, List.lookup_cons, ih, List.contains_cons]
    by_cases h : a = k
    · subst h
      simp
    · have hne : (a == k) = false := by simpa using h
      simp [hne]

namespace JobStore
open Catalog

/-- The rows of jobs under their keys, and the key of the next one. -/
structure Shelf where
  rows : Int64 → Option (job.Position → Cell)
  next : Int64

def key : job.Position :=
  ⟨0, by decide⟩

/-- The fields that statements about jobs list. -/
def listings : List (List job.Position) :=
  (job.positions.filter fun i =>
    (job.field i).isPersistable && !(job.field i).identity).sublists

def insertSql (positions : List job.Position) : String :=
  Sql.insertText .sqlite job.table (positions.map job.columnOf) (positions.map fun _ => .null)
    (some "id")

def updateSql (positions : List job.Position) : String :=
  Sql.updateText .sqlite job.table (positions.map job.columnOf) (positions.map fun _ => .null)
    (job.columnOf key) .null

/-- The cells with those of the listed columns replaced. -/
def filled (positions : List job.Position) (values : List Value) (cells : job.Position → Cell) :
    job.Position → Cell :=
  fun i => (((positions.zip values).lookup i).map Value.toCell).getD (cells i)

/-- The cells of a row that has nothing but a key. -/
def bare (id : Int64) : job.Position → Cell :=
  fun i => if i = key then .int id else .null

def Shelf.put (s : Shelf) (id : Int64) (cells : job.Position → Cell) : Shelf :=
  { s with rows := fun other => if other = id then some cells else s.rows other }

/-- Carries out the inserts and updates of jobs, and fails at all else. -/
def answer : Answerer Statement Statement.Answer Shelf
  | .fetch sql values, s =>
    match listings.find? fun positions => insertSql positions == sql with
    | some positions =>
      if s.next ≠ 0 ∧ (s.rows s.next).isNone then
        (.ok [[("id", .int s.next)]],
          { s.put s.next (filled positions values (bare s.next)) with next := s.next + 1 })
      else (.error .notFound, s)
    | none => (.error .notFound, s)
  | .execute sql values, s =>
    match listings.find? fun positions => updateSql positions == sql, values.getLast? with
    | some positions, some (.int id) =>
      match s.rows id with
      | some cells => (.ok ⟨1, none⟩, s.put id (filled positions values cells))
      | none => (.ok ⟨0, none⟩, s)
    | _, _ => (.error .notFound, s)

theorem mem_listings {positions : List job.Position} (h : job.IsListing positions) :
    positions ∈ listings := by
  obtain ⟨hsub, hall⟩ := h
  rw [listings, List.mem_sublists]
  have hfilter := hsub.filter fun i => (job.field i).isPersistable && !(job.field i).identity
  rwa [List.filter_eq_self.2 fun i hi => by simp [hall i hi]] at hfilter

theorem insertSql_injective : ∀ positions ∈ listings, ∀ others ∈ listings,
    insertSql positions = insertSql others → positions = others := by
  decide +kernel

theorem updateSql_injective : ∀ positions ∈ listings, ∀ others ∈ listings,
    updateSql positions = updateSql others → positions = others := by
  decide +kernel

theorem find?_listings {sql : List job.Position → String}
    (hinjective : ∀ positions ∈ listings, ∀ others ∈ listings,
      sql positions = sql others → positions = others)
    {positions : List job.Position} (h : positions ∈ listings) :
    listings.find? (fun others => sql others == sql positions) = some positions := by
  cases hfind : listings.find? fun others => sql others == sql positions with
  | none =>
    have hnot := List.find?_eq_none.1 hfind positions h
    simp at hnot
  | some others =>
    have heq : sql others = sql positions := by simpa using List.find?_some hfind
    rw [hinjective others (List.mem_of_find?_eq_some hfind) positions h heq]

theorem insertSql_eq (book : Rulebook) (requested : Record job) (positions : List job.Position) :
    (⟨.sqlite, book⟩ : Context).insertSql requested positions = insertSql positions := by
  unfold Context.insertSql insertSql Sql.insertText
  simp only [slots_sqlite, List.map_map, Function.comp_def]
  rfl

theorem updateSql_eq (book : Rulebook) (requested : Record job) (positions : List job.Position)
    (id : Int64) :
    (⟨.sqlite, book⟩ : Context).updateSql requested positions key (.int id) =
      updateSql positions := by
  unfold Context.updateSql updateSql Sql.updateText
  simp only [slots_sqlite, List.map_map, Function.comp_def, List.length_map]
  rfl

theorem filled_eq (requested : Record job) (positions : List job.Position) (more : List Value)
    (cells : job.Position → Cell) (i : job.Position) :
    filled positions (positions.map requested.value ++ more) cells i =
      bif positions.contains i then (requested.value i).toCell else cells i := by
  have hzip : positions.zip (positions.map requested.value ++ more) =
      positions.zip (positions.map requested.value) := by
    have happend : (positions ++ []).zip (positions.map requested.value ++ more) =
        _ ++ ([] : List job.Position).zip more := List.zip_append (List.length_map _).symm
    rwa [List.append_nil, List.zip_nil_left, List.append_nil] at happend
  rw [filled, hzip, lookup_zip_map]
  cases positions.contains i <;> rfl

theorem filled_of_mem {positions : List job.Position} {i : job.Position} (h : i ∈ positions)
    (requested : Record job) (more : List Value) (cells : job.Position → Cell) :
    filled positions (positions.map requested.value ++ more) cells i =
      (requested.value i).toCell := by
  rw [filled_eq, List.contains_iff_mem.2 h, cond_true]

theorem filled_of_not_mem {positions : List job.Position} {i : job.Position} (h : i ∉ positions)
    (requested : Record job) (more : List Value) (cells : job.Position → Cell) :
    filled positions (positions.map requested.value ++ more) cells i = cells i := by
  have hnot : positions.contains i = false := by simpa using h
  rw [filled_eq, hnot, cond_false]

theorem Shelf.rows_put (s : Shelf) (id : Int64) (cells : job.Position → Cell) :
    (s.put id cells).rows id = some cells := by
  simp [put]

theorem not_mem_of_isListing {positions : List job.Position} (h : job.IsListing positions) :
    key ∉ positions := fun hmem => by
  have := (h.2 key hmem).2
  revert this
  decide

theorem fills_filled {positions : List job.Position} (h : job.IsListing positions)
    (requested : Record job) (id : Int64) :
    requested.Fills positions key id
      (filled positions (positions.map requested.value) (bare id)) := by
  rw [← List.append_nil (positions.map requested.value)]
  refine ⟨fun i hi => ?_, ?_, fun i hi hne _ => ?_⟩
  · rw [filled_of_mem hi]
    exact Value.readsBack_toCell _
  · rw [filled_of_not_mem (not_mem_of_isListing h)]
    rfl
  · rw [filled_of_not_mem hi, bare, if_neg hne]
    exact .inr ⟨rfl, rfl⟩

/-- An update of a row that is there overwrites the listed columns. -/
theorem rows_of_execute_update {book : Rulebook} {requested : Record job}
    {positions : List job.Position} (hlisting : job.IsListing positions) {s s' : Shelf}
    {id : Int64} {old : job.Position → Cell} (hold : s.rows id = some old) {done : Done}
    (hanswer : answer (.execute
      ((⟨.sqlite, book⟩ : Context).updateSql requested positions key (.int id))
      (positions.map requested.value ++ [.int id])) s = (.ok done, s')) :
    ∃ new, s'.rows id = some new ∧ (∀ i ∈ positions, new i = (requested.value i).toCell) ∧
      ∀ i ∉ positions, new i = old i := by
  rw [updateSql_eq, answer] at hanswer
  simp only [find?_listings updateSql_injective (mem_listings hlisting), List.getLast?_append,
    List.getLast?_singleton, Option.some_or, hold] at hanswer
  obtain ⟨-, rfl⟩ := Prod.mk.inj hanswer
  exact ⟨_, s.rows_put id _, fun i hi => filled_of_mem hi requested _ old,
    fun i hi => filled_of_not_mem hi requested _ old⟩

end JobStore

open JobStore Catalog in
/-- The jobs kept in memory are a store of jobs. -/
def jobStore (book : Rulebook) : EntityStore ⟨.sqlite, book⟩ job key where
  State := Shelf
  answer := answer
  stored := Shelf.rows
  fetch_insert := by
    intro s s' requested positions rows hlisting _ hanswer
    rw [insertSql_eq, answer] at hanswer
    simp only [find?_listings insertSql_injective (mem_listings hlisting)] at hanswer
    split at hanswer
    · rename_i hfree
      obtain ⟨hrows, hs'⟩ := Prod.mk.inj hanswer
      obtain rfl := Except.ok.inj hrows
      subst hs'
      exact ⟨"id", s.next, _, rfl, hfree.1, Option.isNone_iff_eq_none.1 hfree.2,
        s.rows_put s.next _, fills_filled hlisting requested s.next⟩
    · cases hanswer
  execute_insert := by
    intro s s' requested positions done _ hreturning
    have hsome : (⟨.sqlite, book⟩ : Context).returning? job = some "id" := rfl
    rw [hsome] at hreturning
    cases hreturning
  execute_update := by
    intro s s' requested positions id done hlisting hanswer _ old hold
    obtain ⟨new, hnew, hlisted, hothers⟩ := rows_of_execute_update hlisting hold hanswer
    exact ⟨new, hnew, fun i hi => hlisted i hi ▸ Value.readsBack_toCell _, hothers⟩

end RecordLayer
