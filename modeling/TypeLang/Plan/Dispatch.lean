import TypeLang.Plan.Basic
import TypeLang.Wire.Ids

/-!
# Dispatch

What a leading identifier on the wire stands for. No two declarations share an identifier, and none
but a built-in one has a reserved identifier.
-/

namespace TypeLang

inductive DispatchEntry where
  | boolTrue
  | boolFalse
  /-- A boxed vector whose element type is not known. -/
  | unknownVector
  /-- The declaration at the position `index` of the plan set. -/
  | declaration (schema name : String) (index : Nat)
  deriving DecidableEq, Repr, Inhabited

def DispatchEntry.reservedName? : DispatchEntry → Option String
  | .boolTrue => some "boolTrue"
  | .boolFalse => some "boolFalse"
  | .unknownVector => some "vector"
  | .declaration _ _ _ => none

/-- All identifiers of a plan set. The order of the entries has no meaning. -/
structure DispatchTable where
  entries : List (UInt32 × DispatchEntry)
  /-- The identifiers of the declarations whose values all have one size, by that size. -/
  sizeGroups : List (Nat × List UInt32)
  /-- The identifiers of built-in constructors by name. -/
  builtins : List (String × UInt32)
  deriving DecidableEq, Repr, Inhabited

namespace DispatchTable

def get? (t : DispatchTable) (id : UInt32) : Option DispatchEntry :=
  t.entries.lookup id

def size (t : DispatchTable) : Nat :=
  t.entries.length

def isEmpty (t : DispatchTable) : Bool :=
  t.entries.isEmpty

def reserved : DispatchTable where
  entries := [(Wire.boolTrueId, .boolTrue), (Wire.boolFalseId, .boolFalse),
    (Wire.vectorId, .unknownVector)]
  sizeGroups := []
  builtins := []

def addToGroup (groups : List (Nat × List UInt32)) (size : Nat) (id : UInt32) :
    List (Nat × List UInt32) :=
  if groups.any (·.1 == size) then
    groups.map fun (s, ids) => if s == size then (s, ids ++ [id]) else (s, ids)
  else groups ++ [(size, [id])]

def setBuiltin (builtins : List (String × UInt32)) (name : String) (id : UInt32) :
    List (String × UInt32) :=
  if builtins.any (·.1 == name) then
    builtins.map fun (n, other) => if n == name then (n, id) else (n, other)
  else builtins ++ [(name, id)]

/-- Adds the declaration at position `index`. The earlier declarations, the last one first, are
`earlier`. -/
def add (t : DispatchTable) (earlier : List DeclarationPlan) (d : DeclarationPlan) (index : Nat) :
    Except PlanError DispatchTable :=
  match earlier.find? (·.id == d.id) with
  | some first => .error (.duplicateId d.id first.name d.name)
  | none =>
    if d.role = .builtin then .ok { t with builtins := setBuiltin t.builtins d.name d.id }
    else
      match (t.get? d.id).bind (·.reservedName?) with
      | some first => .error (.duplicateId d.id first d.name)
      | none =>
        .ok
          { t with
            entries := t.entries ++ [(d.id, .declaration d.schema d.name index)]
            sizeGroups := match d.layout.size.constant? with
              | some size => addToGroup t.sizeGroups size d.id
              | none => t.sizeGroups }

/-- Adds declarations behind `earlier`, which holds the last one first. -/
def addAll (t : DispatchTable) (earlier : List DeclarationPlan) :
    List DeclarationPlan → Except PlanError DispatchTable
  | [] => .ok t
  | d :: rest => do
    let t ← t.add earlier d earlier.length
    t.addAll (d :: earlier) rest

def ofDeclarations (ds : List DeclarationPlan) : Except PlanError DispatchTable :=
  reserved.addAll [] ds

end DispatchTable

end TypeLang
