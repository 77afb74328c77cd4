import MetadataRegistry.Toml.Literal

/-!
Tables in the making. A key is assigned once; a table is defined once, by its header or by dotted
keys; a header may add to a table that longer headers implied, and inside one that dotted keys made.
-/

namespace MetadataRegistry

namespace Toml

inductive TableOrigin where
  | header
  | implied
  | dotted
  deriving DecidableEq, Repr

inductive Entry where
  | value (value : Toml)
  | table (origin : TableOrigin) (entries : List (String × Entry))
  | tables (last : List (String × Entry)) (earlier : List (List (String × Entry)))

abbrev Entries := List (String × Entry)

def putEntry (key : String) (entry : Entry) : Entries → Entries
  | [] => [(key, entry)]
  | other :: rest => if other.1 = key then (key, entry) :: rest else other :: putEntry key entry rest

/-- Assigns a value under a dotted key. Only tables that dotted keys made may be added to. -/
def assign : List String → String → Toml → Entries → Option Entries
  | [], key, value, entries =>
      match entries.lookup key with
      | some _ => none
      | none => some (putEntry key (.value value) entries)
  | first :: rest, key, value, entries =>
      match entries.lookup first with
      | none => (assign rest key value []).map fun inner => putEntry first (.table .dotted inner) entries
      | some (.value _) => none
      | some (.table origin inner) =>
          if origin = .header ∨ (rest.isEmpty ∧ origin ≠ .dotted) then none
          else (assign rest key value inner).map fun inner => putEntry first (.table origin inner) entries
      | some (.tables last earlier) =>
          if rest.isEmpty then none
          else (assign rest key value last).map fun last => putEntry first (.tables last earlier) entries

/-- Changes the table that a header's path leads to: tables on the way are implied, and of an array
of tables the last one is meant. -/
def within : List String → (Entries → Option Entries) → Entries → Option Entries
  | [], change, entries => change entries
  | first :: rest, change, entries =>
      match entries.lookup first with
      | none => (within rest change []).map fun inner => putEntry first (.table .implied inner) entries
      | some (.value _) => none
      | some (.table origin inner) =>
          (within rest change inner).map fun inner => putEntry first (.table origin inner) entries
      | some (.tables last earlier) =>
          (within rest change last).map fun last => putEntry first (.tables last earlier) entries

def defineTable (key : String) (entries : Entries) : Option Entries :=
  match entries.lookup key with
  | none => some (putEntry key (.table .header []) entries)
  | some (.table .implied inner) => some (putEntry key (.table .header inner) entries)
  | some _ => none

def appendTable (key : String) (entries : Entries) : Option Entries :=
  match entries.lookup key with
  | none => some (putEntry key (.tables [] []) entries)
  | some (.tables last earlier) => some (putEntry key (.tables [] (last :: earlier)) entries)
  | some _ => none

mutual

def Entry.toToml : Entry → Toml
  | .value value => value
  | .table _ entries => .table (entriesToToml entries)
  | .tables last earlier => .array (tablesToToml earlier [.table (entriesToToml last)])

def entriesToToml : List (String × Entry) → List (String × Toml)
  | [] => []
  | (key, entry) :: rest => (key, entry.toToml) :: entriesToToml rest

def tablesToToml : List (List (String × Entry)) → List Toml → List Toml
  | [], following => following
  | entries :: rest, following => tablesToToml rest (.table (entriesToToml entries) :: following)

end

def ofEntries (entries : Entries) : Toml := .table (entriesToToml entries)

inductive Statement where
  | assignment (path : List String) (key : String) (value : Toml)
  | tableHeader (path : List String) (key : String)
  | arrayHeader (path : List String) (key : String)

def Statement.apply : Statement → List String × Entries → Option (List String × Entries)
  | assignment path key value, (current, entries) =>
      (within current (assign path key value) entries).map fun entries => (current, entries)
  | tableHeader path key, (_, entries) =>
      (within path (defineTable key) entries).map fun entries => (path ++ [key], entries)
  | arrayHeader path key, (_, entries) =>
      (within path (appendTable key) entries).map fun entries => (path ++ [key], entries)

def ofStatements? (statements : List Statement) : Option Toml :=
  (statements.foldlM (fun state (statement : Statement) => statement.apply state) ([], [])).map fun (_, entries) =>
    ofEntries entries

end Toml

end MetadataRegistry
