import Mailroom.Toml.Value

/-! A TOML document while it is read.

Tables are opened by headers and by dotted keys, and each may be opened in only one of the two
ways. So a table remembers whether a header of its own has opened it, and whether dotted keys
have. -/
namespace Mailroom.Toml

/-- How a table came to be. -/
structure Origin where
  /-- Only the keys or headers of tables inside it have named it. -/
  implied : Bool
  /-- Dotted keys have named it. -/
  dotted : Bool
  deriving DecidableEq, Repr

/-- A table that is given as such. -/
def Origin.given : Origin := ⟨false, false⟩

/-- A place in a document. -/
inductive Node
  /-- A value that is complete. -/
  | value (v : Toml)
  | table (origin : Origin) (entries : List (String × Node))
  /-- Tables in a row, the latest first. -/
  | tables (rows : List (List (String × Node)))
  deriving Inhabited

namespace Node

/-- A table in the making. -/
abbrev Open := Origin × List (String × Node)

def find? (key : String) (entries : List (String × Node)) : Option Node :=
  (entries.find? fun e => e.1 == key).map Prod.snd

/-- The entries with a node under a key, in place of the one that was there. -/
def put (key : String) (node : Node) : List (String × Node) → List (String × Node)
  | [] => [(key, node)]
  | e :: rest => if e.1 == key then (key, node) :: rest else e :: put key node rest

/-- Changes the table at the end of a path, which is made where it is missing. A path of
dotted keys leads through no table that was given as such; a path of headers leads through the
latest of several tables. -/
def change (dotted : Bool) (f : Open → Option Open) : List String → Open → Option Open
  | [], t => f t
  | key :: path, (origin, entries) =>
    match find? key entries with
    | none => do
      let (o, es) ← change dotted f path (⟨true, dotted⟩, [])
      pure (origin, put key (.table o es) entries)
    | some (.value _) => none
    | some (.table o es) =>
      if dotted && !o.implied then none
      else do
        let (o, es) ← change dotted f path (o, es)
        pure (origin, put key (.table o es) entries)
    | some (.tables []) => none
    | some (.tables (last :: rows)) => do
      let (_, es) ← change dotted f path (.given, last)
      pure (origin, put key (.tables (es :: rows)) entries)

/-- Puts a value under a key of a table, where there is none. At the end of a path of dotted
keys stands a table that such keys have named. -/
def set (path : List String) (key : String) (v : Toml) : Open → Option Open :=
  change true (fun (origin, entries) =>
    if origin.dotted == path.isEmpty then none
    else if (find? key entries).isSome then none
    else some (origin, entries ++ [(key, .value v)])) path

/-- Opens the table under a key by a header of its own. -/
def openTable (key : String) : Open → Option Open := fun (origin, entries) =>
  match find? key entries with
  | none => some (origin, put key (.table .given []) entries)
  | some (.table o es) =>
    if o.implied && !o.dotted then some (origin, put key (.table .given es) entries) else none
  | some _ => none

/-- Opens one more table in the row under a key. -/
def openRow (key : String) : Open → Option Open := fun (origin, entries) =>
  match find? key entries with
  | none => some (origin, put key (.tables [[]]) entries)
  | some (.tables rows) => some (origin, put key (.tables ([] :: rows)) entries)
  | some _ => none

mutual

/-- The value that a node has become. -/
def toValue : Node → Toml
  | .value v => v
  | .table _ entries => .table (toEntries entries)
  | .tables rows => .array (toRows rows).reverse

/-- The values under the keys of a table. -/
def toEntries : List (String × Node) → List (String × Toml)
  | [] => []
  | (key, node) :: rest => (key, toValue node) :: toEntries rest

/-- The tables in a row. -/
def toRows : List (List (String × Node)) → List Toml
  | [] => []
  | entries :: rest => .table (toEntries entries) :: toRows rest

end

end Node

end Mailroom.Toml
