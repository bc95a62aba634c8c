/-!
# TOML values

TOML as a configuration uses it. A table remembers how it came about, because that decides what a
later line may add to it; `Toml.insert?` and the functions for headers are the only ways to grow
one.
-/

namespace TypeLang

inductive TableOrigin where
  /-- Named on the way to another table of a header. -/
  | implied
  /-- Named by a header of its own. -/
  | header
  /-- Named on the way to a value by a dotted key. -/
  | dotted
  /-- Written in braces. -/
  | inline
  deriving DecidableEq, Repr, Inhabited

inductive Toml where
  | string (value : String)
  | integer (value : Int)
  | float (literal : String)
  | bool (value : Bool)
  /-- A date, a time or both. -/
  | moment (literal : String)
  /-- A growing array holds the tables of repeated headers. -/
  | array (growing : Bool) (items : List Toml)
  | table (origin : TableOrigin) (entries : List (String × Toml))
  deriving Repr, Inhabited

namespace Toml

/-- The entries of a table. Each key stands there once. -/
abbrev Entries := List (String × Toml)

def replace (entries : Entries) (key : String) (value : Toml) : Entries :=
  entries.map fun (k, old) => if k == key then (k, value) else (k, old)

/-- Changes the table at the end of a path with `change`. Tables that are missing on the path are
created with the origin `onPath`. A path leads through the last table of a growing array, and never
through a closed table or another value. A dotted path does not lead through a table that has a
header of its own. -/
def update? (onPath : TableOrigin) (change : TableOrigin → Entries → Option (TableOrigin × Entries)) :
    (path : List String) → TableOrigin → Entries → Option (TableOrigin × Entries)
  | [], origin, entries => change origin entries
  | key :: path, origin, entries =>
    match entries.lookup key with
    | none => do
      let (own, inner) ← update? onPath change path onPath []
      return (origin, entries ++ [(key, .table own inner)])
    | some (.table own inner) =>
      if own = .inline ∨ (onPath = .dotted ∧ own = .header) then none
      else do
        let (own, inner) ← update? onPath change path own inner
        return (origin, replace entries key (.table own inner))
    | some (.array true items) =>
      match items.getLast? with
      | some (.table own inner) => do
        let (own, inner) ← update? onPath change path own inner
        return (origin, replace entries key (.array true (items.dropLast ++ [.table own inner])))
      | _ => none
    | some _ => none

/-- Adds a value under a dotted key. The table that takes it was named by such keys alone. -/
def insert? (path : List String) (key : String) (value : Toml) :
    TableOrigin → Entries → Option (TableOrigin × Entries) :=
  let add (origin : TableOrigin) (entries : Entries) :=
    if path.isEmpty = (origin = .dotted) ∨ (entries.lookup key).isSome then none
    else some (origin, entries ++ [(key, value)])
  update? .dotted add path

def openTable? (path : List String) (key : String) :
    TableOrigin → Entries → Option (TableOrigin × Entries) :=
  let add (origin : TableOrigin) (entries : Entries) :=
    match entries.lookup key with
    | none => some (origin, entries ++ [(key, .table .header [])])
    | some (.table .implied inner) => some (origin, replace entries key (.table .header inner))
    | some _ => none
  update? .implied add path

def openItem? (path : List String) (key : String) :
    TableOrigin → Entries → Option (TableOrigin × Entries) :=
  let add (origin : TableOrigin) (entries : Entries) :=
    match entries.lookup key with
    | none => some (origin, entries ++ [(key, .array true [.table .header []])])
    | some (.array true items) =>
      some (origin, replace entries key (.array true (items ++ [.table .header []])))
    | some _ => none
  update? .implied add path

/-! ## Looking into values -/

def string? : Toml → Option String
  | string s => some s
  | _ => none

def array? : Toml → Option (List Toml)
  | array _ items => some items
  | _ => none

/-- The fields of a record. A table gives each field by its name, among entries that are ignored; an
array gives the fields in order and may leave out the last ones. A moment counts as a table without
fields. -/
def record? (fields : List String) : Toml → Option (List (Option Toml))
  | table _ entries => some (fields.map fun name => entries.lookup name)
  | array _ items =>
    if items.length ≤ fields.length then
      some (items.map some ++ List.replicate (fields.length - items.length) none)
    else none
  | moment _ => some (fields.map fun _ => none)
  | _ => none

end Toml

end TypeLang
