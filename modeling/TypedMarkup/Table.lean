/-!
Contract: tables from names to values that remember the order of first writes.

Owns: `Table.put`, which keeps the place of a name that is written again, and look-up by name.
-/

namespace TypedMarkup

/-- Entries in the order in which their names were first written. -/
abbrev Table (α : Type) := List (String × α)

namespace Table

/-- Writes an entry: a name already present keeps its place and gets the new value. -/
def put {α : Type} (name : String) (value : α) : Table α → Table α
  | [] => [(name, value)]
  | entry :: rest =>
    if entry.1 = name then (name, value) :: rest else entry :: put name value rest

def get? {α : Type} (table : Table α) (name : String) : Option α :=
  List.lookup name table

def names {α : Type} (table : Table α) : List String :=
  table.map Prod.fst

def has {α : Type} (table : Table α) (name : String) : Bool :=
  (table.get? name).isSome

def putAll {α : Type} (table : Table α) (entries : List (String × α)) : Table α :=
  entries.foldl (fun written entry => written.put entry.1 entry.2) table

end Table

/-- A list of names without repetitions, each at its first place. -/
def distinct (names : List String) : List String :=
  names.foldl (fun seen name => if seen.contains name then seen else seen ++ [name]) []

end TypedMarkup
