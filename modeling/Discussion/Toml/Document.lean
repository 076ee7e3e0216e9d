import Discussion.Toml.Basic

/-!
# Documents of TOML

A document is built from headers and from keys with values.  How a table came
about decides what may still be added to it: a table that was opened by a header
may not be opened again nor be extended by keys with full stops; one that such
keys made may only be extended by them; one that was merely passed through on the
way to another may still be opened.
-/

namespace Discussion

namespace Toml

/-- How a table came about. -/
inductive Origin
  /-- By a header of its own, or as the document. -/
  | opened
  /-- On the way to the table of a header. -/
  | passed
  /-- On the way to the value of a key with full stops. -/
  | dotted
deriving DecidableEq, Repr

/-- What a key of a document under construction stands for. -/
inductive Item
  /-- A value that is complete. -/
  | value (v : Toml)
  | table (origin : Origin) (entries : List (String × Item))
  /-- The tables of an array of tables, the latest first. -/
  | tables (latestFirst : List (List (String × Item)))

/-- The keys of a table under construction. -/
abbrev Entries := List (String × Item)

/-- The table with an item for a key, in the place of the former one. -/
def Entries.set (entries : Entries) (key : String) (item : Item) : Entries :=
  match entries with
  | [] => [(key, item)]
  | (k, old) :: rest => if k = key then (key, item) :: rest else (k, old) :: Entries.set rest key item

/-- Changes the table at the end of a path.  Tables that are missing on the way are
made with the given origin; a path of a key with full stops may not pass a table
that was opened. -/
def Entries.update (made : Origin) (change : Origin → Entries → Option Entries) :
    List String → Origin → Entries → Option Entries
  | [], origin, entries => change origin entries
  | key :: path, _, entries =>
      match entries.lookup key with
      | none => do
          let inner ← Entries.update made change path made []
          some (entries.set key (.table made inner))
      | some (.table origin inner) =>
          if made = .dotted ∧ origin = .opened then none
          else do
            let inner ← Entries.update made change path origin inner
            some (entries.set key (.table origin inner))
      | some (.tables (latest :: earlier)) => do
          let latest ← Entries.update made change path .opened latest
          some (entries.set key (.tables (latest :: earlier)))
      | some (.tables []) => none
      | some (.value _) => none

/-- Adds a value for a key, which must be new.  A key with full stops must end in a
table that such keys made, and a key without them must not. -/
def Entries.add (entries : Entries) (path : List String) (key : String) (v : Toml) :
    Option Entries :=
  Entries.update .dotted
    (fun origin inner =>
      if (origin == .dotted) == path.isEmpty then none
      else if (inner.lookup key).isSome then none
      else some (inner.set key (.value v)))
    path .opened entries

/-- Opens the table of a header. -/
def Entries.openTable (entries : Entries) (path : List String) (key : String) : Option Entries :=
  Entries.update .passed
    (fun _ inner =>
      match inner.lookup key with
      | none => some (inner.set key (.table .opened []))
      | some (.table .passed former) => some (inner.set key (.table .opened former))
      | some _ => none)
    path .opened entries

/-- Adds a table to the array of tables of a header. -/
def Entries.openElement (entries : Entries) (path : List String) (key : String) : Option Entries :=
  Entries.update .passed
    (fun _ inner =>
      match inner.lookup key with
      | none => some (inner.set key (.tables [[]]))
      | some (.tables former) => some (inner.set key (.tables ([] :: former)))
      | some _ => none)
    path .opened entries

/-- Adds a value for a key within the table of a header. -/
def Entries.addWithin (entries : Entries) (header path : List String) (key : String) (v : Toml) :
    Option Entries :=
  Entries.update .passed (fun _ inner => inner.add path key v) header .opened entries

mutual

/-- The value of an item. -/
def Item.toValue : Item → Toml
  | .value v => v
  | .table _ entries => .table (entriesToValues entries)
  | .tables latestFirst => .array (tablesToValues latestFirst).reverse

/-- The values of the keys of a table. -/
def entriesToValues : List (String × Item) → List (String × Toml)
  | [] => []
  | (key, item) :: rest => (key, item.toValue) :: entriesToValues rest

/-- The values of the tables of an array of tables. -/
def tablesToValues : List (List (String × Item)) → List Toml
  | [] => []
  | entries :: rest => .table (entriesToValues entries) :: tablesToValues rest

end

end Toml

end Discussion
