import RecordLayer.Proofs.Transaction

/-!
# Whether foreign keys count

A store remembers whether its foreign keys count.  Of all commands only the one that switches them
says whether they do (`Command.keysAfter`); whatever the others create, change or delete, they leave
that as it is, and so does a text as far as none of its statements switches the keys
(`foreignKeys_of_effects`).
-/

namespace RecordLayer

/-! ### What a result is, if there is one -/

/-- If there is a result, it is as told. -/
def Gives {α : Type} (p : α → Prop) (x : Except Failure α) : Prop :=
  ∀ a, x = .ok a → p a

namespace Gives
variable {α β : Type} {p : β → Prop} {q : α → Prop} {x : Except Failure α}
  {f : α → Except Failure β}

theorem ok {b : β} (h : p b) : Gives p (.ok b) := by
  intro b' hb
  cases hb
  exact h

theorem error (failure : Failure) : Gives p (.error failure) :=
  fun _ h => by cases h

theorem bind_of (hx : Gives q x) (hf : ∀ a, q a → Gives p (f a)) : Gives p (x >>= f) := by
  intro b h
  cases x with
  | error failure => cases h
  | ok a => exact hf a (hx a rfl) b h

theorem bind (hf : ∀ a, Gives p (f a)) : Gives p (x >>= f) :=
  bind_of (q := fun _ => True) (fun _ _ => trivial) fun a _ => hf a

theorem ite {c : Prop} [Decidable c] {y z : Except Failure β} (hy : Gives p y) (hz : Gives p z) :
    Gives p (if c then y else z) := by
  split
  · exact hy
  · exact hz

/-- Something is done first if a condition holds. -/
theorem first {c : Prop} [Decidable c] {x : Except Failure Unit} {f : Unit → Except Failure β}
    (hf : ∀ u, Gives p (f u)) : Gives p (if c then x >>= f else f ()) :=
  ite (bind hf) (hf ())

/-- Something is done first if a condition holds, unless another makes do with `y`. -/
theorem orElse {c d : Prop} [Decidable c] [Decidable d] {x : Except Failure Unit}
    {y : Except Failure β} {f : Unit → Except Failure β} (hy : Gives p y)
    (hf : ∀ u, Gives p (f u)) : Gives p (if c then (if d then y else x >>= f) else f ()) :=
  ite (ite hy (bind hf)) (hf ())

theorem foldlM {f : β → α → Except Failure β} {l : List α}
    (hf : ∀ b, p b → ∀ a, Gives p (f b a)) {b : β} (hb : p b) : Gives p (l.foldlM f b) := by
  induction l generalizing b with
  | nil => exact ok hb
  | cons a l ih =>
    rw [List.foldlM_cons]
    exact bind_of (hf b hb a) fun b' hb' => ih hb'

end Gives

namespace Store
variable {s : Store} {on : Bool}

/-! ### Deleting rows -/

theorem foreignKeys_without (s : Store) (table : String) (rows : List Entry) :
    (s.without table rows).foreignKeys = s.foreignKeys := by
  rw [without]
  split
  · rfl
  · rfl

theorem gives_clear (s : Store) (table column : String) (rows : List Entry) :
    Gives (·.foreignKeys = s.foreignKeys) (s.clear table column rows) := by
  rw [clear]
  split
  · exact .ok rfl
  · split
    · exact .ok rfl
    · exact .bind fun _ => .ok rfl

/-- Rows that refer to a row are deleted with it, and rows that refer to them. -/
theorem gives_deleteRow (depth : Nat) (t : Table) (s : Store) (row : Entry) :
    Gives (·.foreignKeys = s.foreignKeys) (deleteRow depth t s row) := by
  induction depth generalizing t s row with
  | zero => exact .ok rfl
  | succ depth ih =>
    rw [deleteRow]
    refine .ite (.ok rfl) (.foldlM (fun left hleft acting => ?_) (foreignKeys_without s _ _))
    -- each key that acts starts from the store that those before it have left
    simp only [← hleft]
    split
    · exact .ok rfl
    · split
      · exact .ok rfl
      · exact .ite (.ok rfl) (.error _)
      · exact .foldlM (fun left' hleft' row' => hleft' ▸ ih _ left' row') rfl
      · exact gives_clear left _ _ _

theorem gives_deleteRows (s : Store) (t : Table) (rows : List Entry) :
    Gives (·.1.foreignKeys = s.foreignKeys) (s.deleteRows t rows) := by
  refine .ite (.ok (foreignKeys_without s _ _)) (.bind_of (.foldlM (p := fun left : Store × Nat =>
    left.1.foreignKeys = s.foreignKeys) ?_ rfl) ?_)
  · rintro ⟨left, count⟩ hleft row
    exact .bind_of (gives_deleteRow _ t left row) fun next hnext => .ok (hnext.trans hleft)
  · rintro ⟨left, count⟩ hleft
    exact .bind fun _ => .ok hleft

/-! ### Commands -/

/-- The command leaves it as it is whether foreign keys count. -/
def KeepsKeys (s : Store) (x : Except Failure Effect) : Prop :=
  Gives (·.store.foreignKeys = s.foreignKeys) x

theorem keepsKeys_createTable (ifAbsent : Bool) (t : Table) :
    s.KeepsKeys (s.createTable ifAbsent t) := by
  rw [createTable]
  refine Gives.first fun _ => ?_
  refine Gives.orElse (.ok rfl) fun _ => ?_
  refine Gives.first fun _ => ?_
  have hnew : ∀ checks : List Expr, s.KeepsKeys (.ok ⟨{ s with
      tables := s.tables ++ [{ t with checks := checks }] }, [], none⟩) := fun _ => .ok rfl
  split
  · exact .bind fun _ => .bind fun _ => .bind hnew
  · exact .bind fun _ => .bind hnew

theorem keepsKeys_createIndex (ifAbsent : Bool) (table : String) (index : Index) :
    s.KeepsKeys (s.createIndex ifAbsent table index) := by
  rw [createIndex]
  split
  · exact .error _
  · refine Gives.first fun _ => ?_
    refine Gives.orElse (.ok rfl) fun _ => ?_
    refine .bind fun _ => ?_
    exact Gives.first fun _ => .ok rfl

theorem keepsKeys_dropTable (ifPresent : Bool) (name : String) :
    s.KeepsKeys (s.dropTable ifPresent name) := by
  rw [dropTable]
  refine Gives.first fun _ => ?_
  split
  · exact .ite (.ok rfl) (.error _)
  · refine .ite (.bind fun _ => ?_) (.ok rfl)
    exact .bind_of (gives_deleteRows s _ _) fun _ hleft => .ok hleft

theorem keepsKeys_dropIndex (ifPresent : Bool) (name : String) :
    s.KeepsKeys (s.dropIndex ifPresent name) :=
  Gives.ite (.ok rfl) (.error _)

theorem keepsKeys_insert (values : List Datum) (table : String) (columns : Option (List String))
    (rows : List (List Expr)) (returning : List Selected) :
    s.KeepsKeys (s.insert values table columns rows returning) := by
  refine Gives.bind fun t => Gives.bind fun _ => ?_
  refine Gives.first fun _ => ?_
  refine Gives.bind fun rows => Gives.bind fun returning => Gives.bind fun _ => ?_
  refine Gives.first fun _ => ?_
  exact Gives.bind fun _ => Gives.bind fun _ => .ok rfl

theorem keepsKeys_update (values : List Datum) (table : String) (changes : List (String × Expr))
    (condition : Option Expr) (returning : List Selected) :
    s.KeepsKeys (s.update values table changes condition returning) := by
  refine Gives.bind fun t => Gives.bind fun changes => Gives.bind fun condition =>
    Gives.bind fun returning => ?_
  refine Gives.first fun _ => ?_
  refine Gives.bind fun _ => Gives.bind fun _ => ?_
  exact Gives.first fun _ => .ok rfl

theorem keepsKeys_delete (values : List Datum) (table : String) (condition : Option Expr)
    (returning : List Selected) : s.KeepsKeys (s.delete values table condition returning) := by
  refine Gives.bind fun t => Gives.bind fun condition => Gives.bind fun returning =>
    Gives.bind fun _ => Gives.bind fun _ => ?_
  exact .bind_of (gives_deleteRows s _ _) fun _ hleft => .ok hleft

theorem keepsKeys_select (values : List Datum) (wanted : List Selected) (source : Option Source)
    (condition : Option Expr) (ordering : List Criterion) :
    s.KeepsKeys (s.select values wanted source condition ordering) := by
  cases source with
  | none => exact Gives.bind fun _ => .bind fun _ => .bind fun _ => .bind fun _ => .ok rfl
  | some source =>
    exact Gives.bind fun _ => .bind fun _ => .bind fun _ => .bind fun _ => .bind fun _ => .ok rfl

/-- Whether foreign keys count after a command, given whether they did. -/
def Command.keysAfter (on : Bool) : Command → Bool
  | .foreignKeys on' => on'
  | _ => on

theorem Command.keysAfter_eq_self {command : Command} (h : command ≠ .foreignKeys (!on)) :
    command.keysAfter on = on := by
  cases command with
  | foreignKeys on' => exact Bool.not_eq_not.1 fun hnot => h (congrArg Command.foreignKeys hnot)
  | _ => rfl

theorem foreignKeys_of_execute {values : List Datum} {command : Command} {effect : Effect}
    (h : s.execute values command = .ok effect) :
    effect.store.foreignKeys = command.keysAfter s.foreignKeys := by
  cases command with
  | createTable ifAbsent t => exact keepsKeys_createTable ifAbsent t effect h
  | createIndex ifAbsent table index => exact keepsKeys_createIndex ifAbsent table index effect h
  | dropTable ifPresent name => exact keepsKeys_dropTable ifPresent name effect h
  | dropIndex ifPresent name => exact keepsKeys_dropIndex ifPresent name effect h
  | insert table columns rows returning =>
    exact keepsKeys_insert values table columns rows returning effect h
  | update table changes condition returning =>
    exact keepsKeys_update values table changes condition returning effect h
  | delete table condition returning =>
    exact keepsKeys_delete values table condition returning effect h
  | select wanted source condition ordering =>
    exact keepsKeys_select values wanted source condition ordering effect h
  | foreignKeys on' =>
    cases h
    rfl

namespace Connection
variable {done : List Part} {db db' : Store}

/-- What is carried out can be read. -/
theorem isSome_of_effects (h : Effects Leaves done db db') :
    ∀ part ∈ done, (Command.ofLexemes? part.2).isSome = true := by
  induction h with
  | nil => exact List.forall_mem_nil _
  | cons head _ ih =>
    obtain ⟨command, _, hcommand, _, _⟩ := head
    exact List.forall_mem_cons.2 ⟨Option.isSome_of_eq_some hcommand, ih⟩

/-- Statements none of which switches the keys the other way leave them as they are. -/
theorem foreignKeys_of_effects (h : Effects Leaves done db db') (hkeys : db.foreignKeys = on)
    (hnone : ∀ part ∈ done, Command.ofLexemes? part.2 ≠ some (.foreignKeys (!on))) :
    db'.foreignKeys = on := by
  induction h with
  | nil => exact hkeys
  | cons head _ ih =>
    obtain ⟨command, effect, hcommand, hdone, rfl⟩ := head
    obtain ⟨hswitch, hnone⟩ := List.forall_mem_cons.1 hnone
    refine ih ?_ hnone
    rw [foreignKeys_of_execute hdone, hkeys]
    refine Command.keysAfter_eq_self fun heq => hswitch ?_
    rw [hcommand, heq]

end Connection

end Store

end RecordLayer
