import PullPlan.Dict
import PullPlan.Toml.Value

/-!
# TOML tables

A document is built statement by statement: a header opens a table, an assignment adds an entry to
the table that was opened last, and the keys of a path may make the tables between.

* A table is opened once. A header may still open one that is only implied by the headers of its
  inner tables.
* A dotted key adds to a table that dotted keys made, and to no other.
* A value is closed: no header and no dotted key leads into it.
-/

namespace PullPlan
namespace Toml

/-- How a table came to be. -/
inductive Origin where
  /-- A header of its own, or the document. -/
  | opened
  /-- A header of a table inside of it. -/
  | implied
  /-- A dotted key. -/
  | dotted
  deriving DecidableEq

/-- What stands at a key while a document is read. -/
inductive Node where
  | value (value : Value)
  | table (origin : Origin) (entries : List (Text × Node))
  | tables (elements : List (List (Text × Node)))

/-- The entries of a table. -/
abbrev Entries := List (Text × Node)

/-- What stands at a key. -/
def Entries.get? (entries : Entries) (key : Text) : Option Node := Dict.lookup key entries

/-- Sets what stands at a key. A new key comes last. -/
def Entries.put (key : Text) (node : Node) : Entries → Entries
  | [] => [(key, node)]
  | (k, old) :: rest => if k = key then (k, node) :: rest else (k, old) :: put key node rest

/-- Setting a key changes what stands at it and nothing else. -/
theorem Entries.get?_put (entries : Entries) (key : Text) (node : Node) (k : Text) :
    (entries.put key node).get? k = if k = key then some node else entries.get? k := by
  simp only [get?]
  induction entries with
  | nil => simp [put, Dict.lookup]
  | cons head rest ih =>
    obtain ⟨k', old⟩ := head
    rw [put]
    split
    · rename_i heq
      subst heq
      by_cases h : k = k' <;> simp [Dict.lookup, h]
    · rename_i hne
      rw [Dict.lookup, ih, Dict.lookup]
      by_cases h : k = k'
      · subst h
        rw [if_pos rfl, if_pos rfl, if_neg hne]
      · rw [if_neg h, if_neg h]

/-! ### Paths -/

/-- Changes the entries that a path leads to. Tables that are not there are made, with the origin
`made`; the path of an array of tables goes on in its last one. A path of dotted keys may not lead
through a table with a header. -/
def within (made : Origin) (change : Origin → Entries → Option Entries) :
    List Text → Origin → Entries → Option Entries
  | [], origin, entries => change origin entries
  | key :: path, _, entries =>
    match entries.get? key with
    | none => do
      let inner ← within made change path made []
      some (entries.put key (.table made inner))
    | some (.value _) => none
    | some (.table origin inner) =>
      if made = .dotted && origin = .opened then none
      else do
        let inner ← within made change path origin inner
        some (entries.put key (.table origin inner))
    | some (.tables elements) =>
      match elements.getLast? with
      | none => none
      | some inner => do
        let inner ← within made change path .opened inner
        some (entries.put key (.tables (elements.dropLast ++ [inner])))

/-- Splits a path into the keys before the last one, and that one. -/
def splitPath (path : List Text) : Option (List Text × Text) :=
  path.getLast?.map fun key => (path.dropLast, key)

/-! ### Statements -/

/-- Opens the table of a header. -/
def openTable (path : List Text) (root : Entries) : Option Entries := do
  let (above, key) ← splitPath path
  let opened (_ : Origin) (entries : Entries) : Option Entries :=
    match entries.get? key with
    | none => some (entries.put key (.table .opened []))
    | some (.table .implied inner) => some (entries.put key (.table .opened inner))
    | some _ => none
  within .implied opened above .opened root

/-- Adds a table to the array of tables of a header. -/
def openElement (path : List Text) (root : Entries) : Option Entries := do
  let (above, key) ← splitPath path
  let added (_ : Origin) (entries : Entries) : Option Entries :=
    match entries.get? key with
    | none => some (entries.put key (.tables [[]]))
    | some (.tables elements) => some (entries.put key (.tables (elements ++ [[]])))
    | some _ => none
  within .implied added above .opened root

/-- Sets a value at a path of keys, which must not be set yet. A key on its own adds to a table with
a header, and the last key of a longer path to a table that dotted keys made. -/
def assign (path : List Text) (value : Value) (table : Entries) : Option Entries := do
  let (above, key) ← splitPath path
  let added (origin : Origin) (entries : Entries) : Option Entries :=
    if above.isEmpty == (origin == .dotted) then none
    else
      match entries.get? key with
      | none => some (entries.put key (.value value))
      | some _ => none
  within .dotted added above .opened table

/-- Sets a value at a path of keys in the table that a header opened. -/
def assignIn (header path : List Text) (value : Value) (root : Entries) : Option Entries :=
  within .implied (fun _ entries => assign path value entries) header .opened root

/-! ### The finished document -/

mutual

/-- The value of what stands at a key. -/
def Node.toValue : Node → Value
  | .value value => value
  | .table _ entries => .table (tableEntries entries)
  | .tables elements => .array (tableElements elements)

/-- The entries of a table as values. -/
def tableEntries : List (Text × Node) → List (Text × Value)
  | [] => []
  | (key, node) :: rest => (key, node.toValue) :: tableEntries rest

/-- The elements of an array of tables as values. -/
def tableElements : List (List (Text × Node)) → List Value
  | [] => []
  | entries :: rest => .table (tableEntries entries) :: tableElements rest

end

end Toml
end PullPlan
