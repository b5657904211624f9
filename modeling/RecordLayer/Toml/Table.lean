import RecordLayer.Json.Overlay

/-!
# TOML — Table

Tables while a text is read.  A table has an origin, which says how it may still grow: one with a
header of its own is closed to dotted keys and to a second header, one that a dotted key made takes
more dotted keys, and one that a longer header implies may still get its own header.
-/

namespace RecordLayer.Toml

inductive Origin where
  | header
  | dotted
  | implied
deriving DecidableEq

inductive Node where
  | value (doc : Json)
  | table (origin : Origin) (entries : List (String × Node))
  /-- tables of one name, each with a header -/
  | tables (items : List (List (String × Node)))

structure Table where
  origin : Origin
  entries : List (String × Node)

namespace Table

/-- A table with its own header and nothing in it. -/
def fresh : Table :=
  ⟨.header, []⟩

/-- Puts a node in the place of the one of its name, or at the end. -/
def putEntry (name : String) (node : Node) : List (String × Node) → List (String × Node)
  | [] => [(name, node)]
  | entry :: rest =>
    if entry.1 = name then (name, node) :: rest else entry :: putEntry name node rest

def put (t : Table) (name : String) (node : Node) : Table :=
  { t with entries := putEntry name node t.entries }

/-- Changes the table at the end of a path.  Tables that are missing on the way are made, dotted
or implied; of tables of one name the last one counts. -/
def change? (dotted : Bool) (f : Table → Option Table) : List String → Table → Option Table
  | [], t => f t
  | name :: path, t =>
    match t.entries.lookup name with
    | none =>
      (change? dotted f path ⟨if dotted then .dotted else .implied, []⟩).map fun inner =>
        t.put name (.table inner.origin inner.entries)
    | some (.table origin entries) =>
      if dotted ∧ origin = .header then none
      else (change? dotted f path ⟨origin, entries⟩).map fun inner =>
        t.put name (.table inner.origin inner.entries)
    | some (.tables items) => do
      let last ← items.getLast?
      let inner ← change? dotted f path ⟨.header, last⟩
      some (t.put name (.tables (items.dropLast ++ [inner.entries])))
    | some (.value _) => none

/-- Changes what a path names, given the table that holds it. -/
def changeEntry? (dotted : Bool) (path : List String) (f : String → Table → Option Table)
    (t : Table) : Option Table := do
  let name ← path.getLast?
  change? dotted (f name) path.dropLast t

/-- Adds a value under a dotted key. -/
def insert? (path : List String) (doc : Json) : Table → Option Table :=
  changeEntry? true path fun name t =>
    let expected := if path.length = 1 then t.origin ≠ .dotted else t.origin = .dotted
    if expected ∧ (t.entries.lookup name).isNone then some (t.put name (.value doc)) else none

/-- Opens the table of a header. -/
def open? (path : List String) : Table → Option Table :=
  changeEntry? false path fun name t =>
    match t.entries.lookup name with
    | none => some (t.put name (.table .header []))
    | some (.table .implied entries) => some (t.put name (.table .header entries))
    | some _ => none

/-- Opens one more table of a name. -/
def openNext? (path : List String) : Table → Option Table :=
  changeEntry? false path fun name t =>
    match t.entries.lookup name with
    | none => some (t.put name (.tables [[]]))
    | some (.tables items) => some (t.put name (.tables (items ++ [[]])))
    | some _ => none

end Table

mutual

def Node.toJson : Node → Json
  | .value doc       => doc
  | .table _ entries => .object (entriesToJson entries)
  | .tables items    => .list (itemsToJson items)

def entriesToJson : List (String × Node) → List (String × Json)
  | []                   => []
  | (name, node) :: rest => (name, node.toJson) :: entriesToJson rest

def itemsToJson : List (List (String × Node)) → List Json
  | []           => []
  | item :: rest => .object (entriesToJson item) :: itemsToJson rest

end

def Table.toJson (t : Table) : Json :=
  .object (entriesToJson t.entries)

end RecordLayer.Toml
