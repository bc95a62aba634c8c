import TypeLang.Declaration
import TypeLang.Document

/-!
# Declarations in reports
-/

namespace TypeLang

def Category.toDocument (c : Category) : Document :=
  .text c.label

def Primitive.toDocument (p : Primitive) : Document :=
  .text p.label

def QualifiedName.toDocument (n : QualifiedName) : Document :=
  .record [("namespace", .texts n.path), ("name", .text n.name)]

def Flag.toDocument (f : Flag) : Document :=
  .record [("word", .text f.word), ("bit", .ofNat f.bit)]

def TypeExpr.toDocument : TypeExpr → Document
  | .primitive p => .record [("primitive", p.toDocument)]
  | .vector inner boxed =>
    .record [("vector", .record [("inner", inner.toDocument), ("boxed", .bool boxed)])]
  | .flag f inner =>
    .record [("flag", .record [("flag", f.toDocument), ("inner", inner.toDocument)])]
  | .var name => .record [("var", .text name)]
  | .named name bare =>
    .record [("named", .record [("name", name.toDocument), ("bare", .bool bare)])]

def Parameter.toDocument (p : Parameter) : Document :=
  .record [("name", .text p.name), ("ty", p.type.toDocument)]

def Declaration.toDocument (d : Declaration) : Document :=
  .record
    [("category", d.category.toDocument), ("id", .ofId d.id), ("name", d.name.toDocument),
      ("params", .list (d.params.map Parameter.toDocument)), ("result", d.result.toDocument)]

end TypeLang
