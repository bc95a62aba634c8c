import TypeLang.Plan.PlanSet
import TypeLang.Report.Declaration

/-!
# Plans in reports

Identifiers and sizes that serve as keys are sorted by number, names by their characters.
-/

namespace TypeLang

def TypeKey.toDocument (k : TypeKey) : Document :=
  .record [("prefix", .text k.schemaPrefix), ("namespace", .texts k.path), ("name", .text k.name)]

def EnumMember.toDocument (m : EnumMember) : Document :=
  .record
    [("label", .text m.label), ("constant", .text m.constant), ("id", .ofId m.id),
      ("name", .text m.name)]

def CommonField.toDocument (f : CommonField) : Document :=
  .record [("name", .text f.name), ("ty", f.type.toDocument), ("optional", .bool f.optional)]

def InterfaceMember.toDocument (m : InterfaceMember) : Document :=
  .record [("id", .ofId m.id), ("name", .text m.name), ("display_name", .text m.displayName)]

def Document.variant (kind : String) (fields : List (String × Document)) : Document :=
  .record (("kind", .text kind) :: fields)

def Representation.toDocument : Representation → Document
  | .singleton id => .variant "singleton" [("id", .ofId id)]
  | .enum members => .variant "enum" [("members", .list (members.map EnumMember.toDocument))]
  | .interface commonFields members =>
    .variant "interface"
      [("common_fields", .list (commonFields.map CommonField.toDocument)),
        ("members", .list (members.map InterfaceMember.toDocument))]

def ProbeKind.toDocument : ProbeKind → Document
  | .fixed size => .variant "fixed" [("size", .ofNat size)]
  | .bytes => .variant "bytes" []
  | .string => .variant "string" []
  | .vector boxed => .variant "vector" [("boxed", .bool boxed)]
  | .object bare => .variant "object" [("bare", .bool bare)]
  | .json => .variant "json" []
  | .generic => .variant "generic" []

def Probe.toDocument (p : Probe) : Document :=
  .record
    [("field_index", .ofNat p.index), ("field", .text p.field), ("kind", p.kind.toDocument),
      ("condition", .ofOption Flag.toDocument p.condition)]

def SizeFormula.toDocument : SizeFormula → Document
  | .constant size => .variant "constant" [("size", .ofNat size)]
  | .dynamic base probes =>
    .variant "dynamic"
      [("base", .ofNat base), ("probes", .list (probes.map Probe.toDocument))]

def FieldKind.toDocument : FieldKind → Document
  | .flagsWord unused => .variant "flags_word" [("unused", .bool unused)]
  | .trueBit => .variant "true_bit" []
  | .fixed size => .variant "fixed" [("size", .ofNat size)]
  | .dynamic => .variant "dynamic" []

def FieldPlan.toDocument (f : FieldPlan) : Document :=
  .record
    [("name", .text f.name), ("display_name", .text f.displayName),
      ("rust_name", .text f.identifier), ("ty", f.type.toDocument), ("kind", f.kind.toDocument),
      ("flag", .ofOption Flag.toDocument f.flag?)]

def PresenceBit.toDocument (b : PresenceBit) : Document :=
  .record [("bit", .ofNat b.bit), ("field", .text b.field)]

def Layout.toDocument (l : Layout) : Document :=
  .record
    [("size", l.size.toDocument),
      ("presence",
        .record (l.presence.map fun (word, bits) =>
          (word, .list (bits.map PresenceBit.toDocument)))),
      ("fields", .list (l.fields.map FieldPlan.toDocument))]

def SchemaSummary.toDocument (s : SchemaSummary) : Document :=
  .record
    [("name", .text s.name), ("namespace_prefix", .text s.namespacePrefix),
      ("default_supertype", .text s.defaultSupertype), ("layer", .ofOption .ofId s.layer),
      ("constructors", .ofNat s.constructors), ("methods", .ofNat s.methods)]

def Role.toDocument : Role → Document
  | .singleton => .variant "singleton" []
  | .enumMember label constant =>
    .variant "enum_member" [("label", .text label), ("constant", .text constant)]
  | .interfaceMember => .variant "interface_member" []
  | .method => .variant "method" []
  | .builtin => .variant "builtin" []

def TypePlan.toDocument (t : TypePlan) : Document :=
  .record
    [("key", t.key.toDocument), ("schema", .text t.schema), ("display_name", .text t.displayName),
      ("resolved", t.representation.toDocument), ("supertypes", .texts t.supertypes)]

def DeclarationPlan.toDocument (d : DeclarationPlan) : Document :=
  .record
    [("id", .ofId d.id), ("name", .text d.name), ("namespace_path", .texts d.path),
      ("category", d.category.toDocument), ("schema", .text d.schema),
      ("schema_prefix", .text d.schemaPrefix), ("display_name", .text d.displayName),
      ("result", d.result.toDocument), ("type_key", .ofOption TypeKey.toDocument d.typeKey),
      ("role", d.role.toDocument), ("capabilities", .texts d.capabilities),
      ("recursive", .bool d.recursive), ("wire", d.layout.toDocument)]

def DispatchEntry.toDocument : DispatchEntry → Document
  | .boolTrue => .variant "bool_true" []
  | .boolFalse => .variant "bool_false" []
  | .unknownVector => .variant "unknown_vector" []
  | .declaration schema name index =>
    .variant "declaration"
      [("schema", .text schema), ("name", .text name), ("index", .ofNat index)]

def DispatchTable.toDocument (t : DispatchTable) : Document :=
  let entries := t.entries.mergeSort fun a b => a.1 ≤ b.1
  let groups := t.sizeGroups.mergeSort fun a b => a.1 ≤ b.1
  let builtins := t.builtins.mergeSort fun a b => a.1 ≤ b.1
  .record
    [("entries", .record (entries.map fun (id, e) => (toString id, e.toDocument))),
      ("size_groups",
        .record (groups.map fun (size, ids) => (toString size, .list (ids.map .ofId)))),
      ("primitives", .record (builtins.map fun (name, id) => (name, .ofId id)))]

def PlanSet.toDocument (p : PlanSet) : Document :=
  .record
    [("schemas", .list (p.schemas.map SchemaSummary.toDocument)),
      ("types", .list (p.types.map TypePlan.toDocument)),
      ("declarations", .list (p.declarations.map DeclarationPlan.toDocument)),
      ("dispatch", p.dispatch.toDocument)]

end TypeLang
