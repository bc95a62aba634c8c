import TypeLang.Plan.Capability
import TypeLang.Plan.Dispatch
import TypeLang.Plan.Recursion

/-!
# Plan sets

`compile` puts schemas together to a plan set: every type with its representation, every declaration
with its layout, and the dispatch of identifiers. Schemas with one prefix share their types.
-/

namespace TypeLang

/-- What schemas compile to. -/
structure PlanSet where
  /-- The schemas in order. -/
  schemas : List SchemaSummary
  /-- The types in the order in which they are first produced. -/
  types : List TypePlan
  /-- Schema by schema the constructors and behind them the methods. -/
  declarations : List DeclarationPlan
  dispatch : DispatchTable
  deriving DecidableEq, Repr, Inhabited

namespace PlanSet

def declaration? (p : PlanSet) (id : UInt32) : Option DeclarationPlan :=
  p.declarations.find? (·.id == id)

def declarationNamed? (p : PlanSet) (name : String) : Option DeclarationPlan :=
  p.declarations.find? (·.name == name)

def type? (p : PlanSet) (key : TypeKey) : Option TypePlan :=
  p.types.find? (·.key == key)

end PlanSet

abbrev RepresentedTypes := List (TypeGroup × Representation)

namespace RepresentedTypes

def ofGroups (groups : List TypeGroup) : Except PlanError RepresentedTypes :=
  groups.mapM fun g => return (g, ← Representation.ofConstructors g.key g.constructors)

def find? (types : RepresentedTypes) (key : TypeKey) : Option (TypeGroup × Representation) :=
  List.find? (·.1.key == key) types

end RepresentedTypes

/-- The plan of a type. It belongs to the first schema with its prefix. -/
def TypePlan.ofRepresented (schemas : List Schema) (table : CapabilityTable)
    (type : TypeGroup × Representation) : TypePlan :=
  let key := type.1.key
  let owner := schemas.find? (·.config.namespacePrefix == key.schemaPrefix)
  let own := (owner.map (·.config.defaultSupertype)).toList
  ⟨key, (owner.map (·.config.name)).getD "", key.name, type.2,
    (own ++ table.tags key.qualifiedName).eraseDups⟩

namespace DeclarationPlan

/-- The part that a declaration with identifier `id` plays for a type that is represented so. -/
def roleIn (representation : Representation) (id : UInt32) : Role :=
  match representation with
  | .singleton _ => .singleton
  | .enum _ =>
    match representation.enumMember? id with
    | some m => .enumMember m.label m.constant
    | none => .interfaceMember
  | .interface _ _ => .interfaceMember

def classify (types : RepresentedTypes) (schemaPrefix : String) (d : Declaration) :
    Option TypeKey × Role × String :=
  match d.category with
  | .method => (none, .method, d.methodName)
  | .constructor =>
    match (TypeKey.ofResult? schemaPrefix d.result).bind types.find? with
    | some (g, representation) =>
      (some g.key, roleIn representation d.id, d.constructorName g.key g.isSingle)
    | none => (none, .builtin, d.name.displayName)

def ofDeclaration (types : RepresentedTypes) (table : CapabilityTable) (recursive : List UInt32)
    (s : Schema) (d : Declaration) : Except PlanError DeclarationPlan := do
  let (typeKey, role, displayName) := classify types s.config.namespacePrefix d
  let layout ← Layout.ofDeclaration d
  return {
      id := d.id, name := d.fullName, path := d.name.path, category := d.category,
      schema := s.config.name, schemaPrefix := s.config.namespacePrefix, displayName,
      result := d.result, typeKey, role, capabilities := table.tags displayName,
      recursive := recursive.contains d.id, layout }

end DeclarationPlan

def compile (schemas : List Schema) (capabilities : Capabilities) : Except PlanError PlanSet := do
  let table ← CapabilityTable.ofCapabilities capabilities
  let groups := TypeGroup.ofSchemas schemas
  let types ← RepresentedTypes.ofGroups groups
  let recursive := Recursion.ids groups
  let declarations ← (schemas.flatMap fun s => s.declarations.map (s, ·)).mapM fun (s, d) =>
    DeclarationPlan.ofDeclaration types table recursive s d
  let dispatch ← DispatchTable.ofDeclarations declarations
  return {
      schemas := schemas.map SchemaSummary.ofSchema
      types := types.map (TypePlan.ofRepresented schemas table)
      declarations
      dispatch }

end TypeLang
