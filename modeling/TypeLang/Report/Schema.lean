import TypeLang.Report.Declaration
import TypeLang.Schema

/-!
# Schemas in reports
-/

namespace TypeLang

def SchemaConfig.toDocument (c : SchemaConfig) : Document :=
  .record
    [("name", .text c.name), ("namespace_prefix", .text c.namespacePrefix),
      ("default_supertype", .text c.defaultSupertype), ("id_format", .text c.idFormat.label)]

def Schema.toDocument (s : Schema) : Document :=
  .record
    [("config", s.config.toDocument), ("layer", .ofOption .ofId s.layer),
      ("constructors", .list (s.constructors.map Declaration.toDocument)),
      ("methods", .list (s.methods.map Declaration.toDocument))]

end TypeLang
