import TypeLang.Codec.Error
import TypeLang.Plan.PlanSet

/-!
# References

Which declaration an identifier, a type or a bare name stands for.
-/

namespace TypeLang

structure Site where
  /-- The prefix of the schema in which names are looked up. -/
  schemaPrefix : String
  /-- The field, for messages. -/
  field : String
  deriving DecidableEq, Repr, Inhabited

def Site.top : Site := ⟨"", "value"⟩

/-- The length of a payload, if a header can hold it. -/
def Site.checkLength (site : Site) (length : Nat) : Except CodecError Nat :=
  if Wire.maxPayload < length then .error (.payloadTooLong site.field length) else .ok length

def DeclarationPlan.site (d : DeclarationPlan) (field : FieldPlan) : Site :=
  ⟨d.schemaPrefix, field.name⟩

namespace PlanSet

/-- The declaration that an identifier is dispatched to. Reserved identifiers stand for none. -/
def dispatched (p : PlanSet) (id : UInt32) : Except CodecError DeclarationPlan :=
  match p.dispatch.get? id with
  | some (.declaration _ _ index) =>
    match p.declarations[index]? with
    | some d => .ok d
    | none => .error (.unknownId id)
  | _ => .error (.unknownId id)

/-- The declaration of an object where the type `name` is declared. A type that no constructor
produces admits every object. -/
def typed (p : PlanSet) (site : Site) (name : QualifiedName) (id : UInt32) :
    Except CodecError DeclarationPlan := do
  let d ← p.dispatched id
  let key := TypeKey.ofName site.schemaPrefix name
  if (p.type? key).isNone || d.typeKey == some key then return d
  else throw (.otherType site.field key d.name)

/-- The last constructor with a full name in a schema with the given prefix. -/
def constructor? (p : PlanSet) (schemaPrefix fullName : String) : Option DeclarationPlan :=
  p.declarations.reverse.find? fun d =>
    d.category = .constructor && d.schemaPrefix == schemaPrefix && d.name == fullName

/-- The only constructor of a type. -/
def soleConstructor? (p : PlanSet) (key : TypeKey) : Option DeclarationPlan :=
  match p.type? key with
  | some ⟨_, _, _, .singleton id, _⟩ => (p.dispatched id).toOption
  | _ => none

/-- The constructor that a bare name stands for: a lowercase name is its own, any other one has to
name a type with one constructor. -/
def bare (p : PlanSet) (schemaPrefix : String) (name : QualifiedName) :
    Except CodecError DeclarationPlan :=
  let found :=
    if name.isLowercase then p.constructor? schemaPrefix name.fullName
    else p.soleConstructor? (TypeKey.ofName schemaPrefix name)
  match found with
  | some d => .ok d
  | none => .error (.unknownType name.fullName)

def method (p : PlanSet) (id : UInt32) : Except CodecError DeclarationPlan := do
  let d ← p.dispatched id
  if d.category = .method then return d else throw (.unknownId id)

end PlanSet

end TypeLang
