import TypeLang.Plan.Layout
import TypeLang.Plan.Representation

/-!
# Plans

What is known of schemas, types and declarations once they have been compiled together.
-/

namespace TypeLang

structure SchemaSummary where
  name : String
  namespacePrefix : String
  defaultSupertype : String
  layer : Option UInt32
  /-- The number of constructors. -/
  constructors : Nat
  /-- The number of methods. -/
  methods : Nat
  deriving DecidableEq, Repr, Inhabited

def SchemaSummary.ofSchema (s : Schema) : SchemaSummary :=
  ⟨s.config.name, s.config.namespacePrefix, s.config.defaultSupertype, s.layer,
    s.constructors.length, s.methods.length⟩

inductive Role where
  /-- The only constructor. -/
  | singleton
  /-- One of several constructors without parameters. -/
  | enumMember (label constant : String)
  /-- One of several constructors that do not form an enum. -/
  | interfaceMember
  | method
  /-- A constructor of a built-in type. -/
  | builtin
  deriving DecidableEq, Repr, Inhabited

structure TypePlan where
  key : TypeKey
  /-- The name of the schema that owns the prefix of the key. -/
  schema : String
  displayName : String
  representation : Representation
  /-- The supertype of the schema and behind it the configured tags. -/
  supertypes : List String
  deriving DecidableEq, Repr, Inhabited

structure DeclarationPlan where
  id : UInt32
  /-- The full name. -/
  name : String
  path : List String
  category : Category
  /-- The name of the schema. -/
  schema : String
  schemaPrefix : String
  displayName : String
  result : TypeExpr
  /-- The type that a constructor belongs to. -/
  typeKey : Option TypeKey
  role : Role
  capabilities : List String
  /-- The parameters lead back to the type of the constructor. -/
  recursive : Bool
  layout : Layout
  deriving DecidableEq, Repr, Inhabited

end TypeLang
