import TypeLang.Declaration
import TypeLang.Name.Casing
import TypeLang.Plan.Error

/-!
# Layouts

How a declaration is laid out on the wire: its fields in order, the presence bits that its flags
words carry, and the size of its values.
-/

namespace TypeLang

inductive FieldKind where
  /-- The word is put together from the presence of other fields; an unused one is zero. -/
  | flagsWord (unused : Bool)
  /-- No bytes; the value is a presence bit. -/
  | trueBit
  | fixed (size : Nat)
  | dynamic
  deriving DecidableEq, Repr, Inhabited

structure FieldPlan where
  name : String
  displayName : String
  /-- The identifier in generated code. -/
  identifier : String
  /-- The declared type, with its flag. -/
  type : TypeExpr
  kind : FieldKind
  deriving DecidableEq, Repr, Inhabited

namespace FieldPlan

def flag? (f : FieldPlan) : Option Flag :=
  f.type.flag?

def valueType (f : FieldPlan) : TypeExpr :=
  f.type.erased

end FieldPlan

inductive ProbeKind where
  /-- A fixed number of bytes, if the field is there. -/
  | fixed (size : Nat)
  | bytes
  | string
  | vector (boxed : Bool)
  | object (bare : Bool)
  | json
  /-- The value tells its own type. -/
  | generic
  deriving DecidableEq, Repr, Inhabited

/-- A field whose size depends on the value. -/
structure Probe where
  /-- The position of the field in the layout. -/
  index : Nat
  field : String
  kind : ProbeKind
  condition : Option Flag
  deriving DecidableEq, Repr, Inhabited

/-- The size of the values of a declaration, with their identifier. -/
inductive SizeFormula where
  | constant (size : Nat)
  /-- `base` and what the probes count. -/
  | dynamic (base : Nat) (probes : List Probe)
  deriving DecidableEq, Repr, Inhabited

namespace SizeFormula

def base : SizeFormula → Nat
  | constant size => size
  | dynamic base _ => base

def constant? : SizeFormula → Option Nat
  | constant size => some size
  | dynamic _ _ => none

def probes : SizeFormula → List Probe
  | constant _ => []
  | dynamic _ probes => probes

end SizeFormula

structure PresenceBit where
  bit : Fin 32
  field : String
  deriving DecidableEq, Repr, Inhabited

structure Layout where
  size : SizeFormula
  /-- The bits that each flags word carries, in the order of the fields. -/
  presence : List (String × List PresenceBit)
  fields : List FieldPlan
  deriving DecidableEq, Repr, Inhabited

namespace Layout

def field? (l : Layout) (name : String) : Option FieldPlan :=
  l.fields.find? (·.name == name)

def bits (l : Layout) (word : String) : List PresenceBit :=
  (l.presence.lookup word).getD []

def idSize : Nat := 4

def fixedSize? : TypeExpr → Option Nat
  | .primitive .trueLiteral => none
  | .primitive p => p.fixedSize?
  | _ => none

def probeKind : TypeExpr → ProbeKind
  | .primitive .bytes => .bytes
  | .primitive .string => .string
  | .primitive .json => .json
  | .vector _ boxed => .vector boxed
  | .named _ bare => .object bare
  | _ => .generic

/-- A flags word starts without bits; declaring it again takes its earlier bits away. -/
def declareWord (presence : List (String × List PresenceBit)) (word : String) :
    List (String × List PresenceBit) :=
  if presence.any (·.1 == word) then
    presence.map fun (key, bits) => if key == word then (key, []) else (key, bits)
  else presence ++ [(word, [])]

def addBit (presence : List (String × List PresenceBit)) (flag : Flag) (field : String) :
    List (String × List PresenceBit) :=
  presence.map fun (key, bits) =>
    if key == flag.word then (key, bits ++ [⟨flag.bit, field⟩]) else (key, bits)

structure Draft where
  presence : List (String × List PresenceBit)
  fields : List FieldPlan
  probes : List Probe
  base : Nat

namespace Draft

def empty : Draft :=
  ⟨[], [], [], idSize⟩

/-- A gated parameter is put down among the bits of its flags word, which must be there already. -/
def gate (declaration : String) (draft : Draft) (p : Parameter) : Except PlanError Draft :=
  match p.type.flag? with
  | none => .ok draft
  | some flag =>
    if draft.presence.any (·.1 == flag.word) then
      .ok { draft with presence := addBit draft.presence flag p.name }
    else .error (.missingFlagsWord declaration flag.word)

/-- Counts the bytes of a parameter, for every value or by a probe, and tells how it is written. -/
def count (draft : Draft) (p : Parameter) (index : Nat) : Draft × FieldKind :=
  let probing (kind : ProbeKind) : Draft :=
    { draft with probes := draft.probes ++ [⟨index, p.name, kind, p.type.flag?⟩] }
  match p.type.erased with
  | .primitive .flags =>
    ({ draft with presence := declareWord draft.presence p.name, base := draft.base + 4 },
      .flagsWord true)
  | .primitive .trueLiteral => (draft, .trueBit)
  | type =>
    match fixedSize? type, p.type.flag? with
    | some size, none => ({ draft with base := draft.base + size }, .fixed size)
    | some size, some _ => (probing (.fixed size), .fixed size)
    | none, _ => (probing (probeKind type), .dynamic)

def add (declaration : String) (draft : Draft) : Parameter × Nat → Except PlanError Draft
  | (p, index) => do
    let gated ← draft.gate declaration p
    let (counted, kind) := gated.count p index
    let field := ⟨p.name, Casing.camel p.name, Casing.fieldIdentifier p.name, p.type, kind⟩
    return { counted with fields := counted.fields ++ [field] }

end Draft

/-- A flags word is written as unused until all parameters are known. -/
def settle (presence : List (String × List PresenceBit)) (f : FieldPlan) : FieldPlan :=
  match f.kind with
  | .flagsWord _ => { f with kind := .flagsWord ((presence.lookup f.name).getD []).isEmpty }
  | _ => f

/-- The layout of a declaration. Every gated parameter needs a flags word in front of it. -/
def ofDeclaration (d : Declaration) : Except PlanError Layout := do
  let draft ← d.params.zipIdx.foldlM (Draft.add d.fullName) .empty
  return {
      size :=
        if draft.probes.isEmpty then .constant draft.base else .dynamic draft.base draft.probes
      presence := draft.presence
      fields := draft.fields.map (settle draft.presence) }

end Layout

end TypeLang
