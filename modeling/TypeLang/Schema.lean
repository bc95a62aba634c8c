import TypeLang.Declaration
import TypeLang.Schema.IdFormat

/-!
# Schemas

A schema holds the constructors and methods of one source, with the settings under which it is
compiled together with others.
-/

namespace TypeLang

structure SchemaConfig where
  /-- A label for reports. -/
  name : String := "api"
  /-- Put in front of every type key; empty for the main schema. -/
  namespacePrefix : String := ""
  /-- A tag that every type of the schema carries. -/
  defaultSupertype : String := "TlObject"
  /-- How identifier texts of a JSON schema are read. -/
  idFormat : IdFormat := .auto
  deriving DecidableEq, Repr, Inhabited

def SchemaConfig.mtproto : SchemaConfig :=
  { name := "mtproto", namespacePrefix := "mtproto", defaultSupertype := "MTProtoObject" }

structure Schema where
  config : SchemaConfig
  /-- The layer that the source announces. -/
  layer : Option UInt32
  constructors : List Declaration
  methods : List Declaration
  deriving DecidableEq, Repr, Inhabited

namespace Schema

/-- The constructors and behind them the methods. -/
def declarations (s : Schema) : List Declaration :=
  s.constructors ++ s.methods

def ofDeclarations (config : SchemaConfig) (layer : Option UInt32) (ds : List Declaration) : Schema :=
  { config, layer, constructors := ds.filter (·.category = .constructor),
    methods := ds.filter (·.category = .method) }

end Schema

end TypeLang
