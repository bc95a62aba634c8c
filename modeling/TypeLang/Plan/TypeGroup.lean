import TypeLang.Plan.TypeKey

/-!
# Type groups

The constructors of a list of schemas, grouped by the type they produce. Groups stand in the order in
which their keys are first met, constructors in the order of the schemas.
-/

namespace TypeLang

structure TypeGroup where
  key : TypeKey
  constructors : List Declaration
  deriving DecidableEq, Repr, Inhabited

namespace TypeGroup

/-- The constructors of a schema that belong to a type, with its key. -/
def members (s : Schema) : List (TypeKey × Declaration) :=
  s.constructors.filterMap fun d =>
    (TypeKey.ofResult? s.config.namespacePrefix d.result).map fun key => (key, d)

def ofMembers (members : List (TypeKey × Declaration)) : List TypeGroup :=
  (members.map (·.1)).eraseDups.map fun key =>
    ⟨key, (members.filter (·.1 == key)).map (·.2)⟩

def ofSchemas (schemas : List Schema) : List TypeGroup :=
  ofMembers (schemas.flatMap members)

def find? (groups : List TypeGroup) (key : TypeKey) : Option TypeGroup :=
  groups.find? (·.key == key)

def isSingle (g : TypeGroup) : Bool :=
  g.constructors.length == 1

end TypeGroup

end TypeLang
