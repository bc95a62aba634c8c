import TypeLang.Schema

/-!
# Schema arguments

An argument `PATH=PREFIX` or `PATH` of the command line names a schema file and the namespace prefix
of its types.
-/

namespace TypeLang

structure SchemaArg where
  path : String
  /-- Empty for the main schema. -/
  schemaPrefix : String
  deriving DecidableEq, Repr, Inhabited

inductive SchemaArgError where
  | missingPath (text : String)
  | invalidPrefix (text : String)
  deriving DecidableEq, Repr

def SchemaArgError.message : SchemaArgError → String
  | .missingPath text => "missing schema path in `" ++ text ++ "`"
  | .invalidPrefix text => "invalid namespace prefix `" ++ text ++ "`"

namespace SchemaArg

/-- Reads an argument. The last equals sign separates the prefix. -/
def parse (text : String) : Except SchemaArgError SchemaArg :=
  let (path, own) := (Text.splitLast '=' text.toList).getD (text.toList, [])
  if path.isEmpty then .error (.missingPath text)
  else if own.all isIdentifierChar then .ok ⟨String.ofList path, String.ofList own⟩
  else .error (.invalidPrefix (String.ofList own))

/-- The settings of the schema. The main schema may be given another supertype. -/
def config (a : SchemaArg) (supertype : Option String) : SchemaConfig :=
  let default : SchemaConfig := {}
  if a.schemaPrefix = "" then
    { default with defaultSupertype := supertype.getD default.defaultSupertype }
  else if a.schemaPrefix = SchemaConfig.mtproto.name then .mtproto
  else { default with name := a.schemaPrefix, namespacePrefix := a.schemaPrefix }

end SchemaArg

end TypeLang
