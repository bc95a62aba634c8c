import TypeLang.Name.Casing
import TypeLang.Schema

/-!
# Type keys

A type of a plan is known by the prefix of its schema, its namespaces and its name in `PascalCase`.
Constructors with one key are alternatives of one type.
-/

namespace TypeLang

structure TypeKey where
  /-- The namespace prefix of the schema. -/
  schemaPrefix : String
  path : List String
  name : String
  deriving DecidableEq, Repr, Inhabited

namespace TypeKey

/-- The key of a type name in a schema with the given prefix. -/
def ofName (schemaPrefix : String) (name : QualifiedName) : TypeKey :=
  ⟨schemaPrefix, name.path, name.displayName⟩

/-- Result types that are part of every codec and never types of a plan. -/
def builtinResults : List String :=
  ["True", "Null", "HttpWait", "JSONObjectValue"]

/-- The key of the type that a constructor with this result belongs to. Built-in results have none,
except that the constructors of `Object` form a type. -/
def ofResult? (schemaPrefix : String) : TypeExpr → Option TypeKey
  | .named name _ => if builtinResults.contains name.name then none else some (ofName schemaPrefix name)
  | .primitive .object => some ⟨schemaPrefix, [], "Object"⟩
  | _ => none

/-- Namespaces and name, without the prefix of the schema. -/
def qualifiedName (k : TypeKey) : String :=
  ".".intercalate (k.path ++ [k.name])

def text (k : TypeKey) : String :=
  (if k.schemaPrefix.isEmpty then "" else k.schemaPrefix ++ ":") ++ k.qualifiedName

end TypeKey

namespace Declaration

/-- The display name of a constructor of the type `key`. The only constructor takes the name of the
type, except of `Object`; among several, one that has the name of the type is set off from it. -/
def constructorName (d : Declaration) (key : TypeKey) (single : Bool) : String :=
  let own := d.name.displayName
  if single then
    if key.name = "Object" then own else key.name
  else if own = key.name then "Base" ++ own
  else own

def methodName (d : Declaration) : String :=
  d.name.displayName

end Declaration

end TypeLang
