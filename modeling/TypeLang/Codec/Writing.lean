import TypeLang.Codec.Output
import TypeLang.Codec.Presence
import TypeLang.Codec.Reference

/-!
# Writing values

How a plan set writes a value. Where a type is declared, the value has to be of that type; elsewhere
its bytes have to tell its type. The fields of an object are written in the order of its
declaration, flags words as the fields that are there demand.
-/

namespace TypeLang

namespace PlanSet

def writePayload (site : Site) (bytes : List UInt8) : Output :=
  match site.checkLength bytes.length with
  | .ok _ => .ofBytes (Wire.payload bytes)
  | .error e => .failed e

def writePrimitive (site : Site) : Primitive → Value → Output
  | .int, .int v => .ofBytes (Wire.int32 v)
  | .long, .long v => .ofBytes (Wire.int64 v)
  | .double, .double bits => .ofBytes (Wire.uint64 bits)
  | .bool, .bool v => .ofBytes (Wire.bool v)
  | .bytes, .bytes v => writePayload site v
  | .string, .string v => writePayload site (Text.toUtf8 v)
  | .int128, .int128 v => .ofBytes v.toList
  | .int256, .int256 v => .ofBytes v.toList
  | .json, .json v => .ofBytes v.encode
  | .trueLiteral, _ => .empty
  | kind, _ => .failed (.mismatch site.field (.primitive kind))

mutual

def writeGeneric (p : PlanSet) (site : Site) (value : Value) : Output :=
  match value with
  | .object id fields =>
    match p.dispatched id with
    | .ok d => .ofBytes (Wire.uint32 id) ++ writeFields p d fields d.layout.fields
    | .error e => .failed e
  | .bool v => .ofBytes (Wire.bool v)
  | .json v => .ofBytes v.encode
  | .vector items => .ofBytes (Wire.vectorHeader items.length) ++ writeGenericItems p site items
  | v => .failed (.notSelfDescribing site.field v.label)
termination_by (sizeOf value, 0)

/-- Writes items whose type is not declared. Numbers are written as they are. -/
def writeGenericItems (p : PlanSet) (site : Site) (items : List Value) : Output :=
  match items with
  | [] => .empty
  | .int v :: rest => .ofBytes (Wire.int32 v) ++ writeGenericItems p site rest
  | .long v :: rest => .ofBytes (Wire.int64 v) ++ writeGenericItems p site rest
  | item :: rest => writeGeneric p site item ++ writeGenericItems p site rest
termination_by (sizeOf items, 0)

def writeTyped (p : PlanSet) (site : Site) (type : TypeExpr) (value : Value) : Output :=
  match type, value with
  | .primitive .object, v => writeGeneric p site v
  | .primitive kind, v => writePrimitive site kind v
  | .vector inner boxed, .vector items =>
    .ofBytes (if boxed then Wire.vectorHeader items.length else Wire.count items.length)
      ++ writeItems p site inner items
  | .var name, v =>
    if v.isSelfDescribing then writeGeneric p site v else .failed (.unresolvedVariable name)
  | .named name true, .object _ fields =>
    match p.bare site.schemaPrefix name with
    | .ok d => writeFields p d fields d.layout.fields
    | .error e => .failed e
  | .named name false, .object id fields =>
    match p.typed site name id with
    | .ok d => .ofBytes (Wire.uint32 id) ++ writeFields p d fields d.layout.fields
    | .error e => .failed e
  | .flag _ inner, v => writeTyped p site inner v
  | t, _ => .failed (.mismatch site.field t)
termination_by (sizeOf value, sizeOf type)

def writeItems (p : PlanSet) (site : Site) (type : TypeExpr) (items : List Value) : Output :=
  match items with
  | [] => .empty
  | item :: rest => writeTyped p site type item ++ writeItems p site type rest
termination_by (sizeOf items, 0)

def writeFields (p : PlanSet) (d : DeclarationPlan) (fields : Fields) (todo : List FieldPlan) :
    Output :=
  match todo with
  | [] => .empty
  | f :: rest =>
    let field : Output := match f.kind with
      | .flagsWord _ => .ofBytes (Wire.uint32 (d.layout.flagsWord fields f.name))
      | .trueBit => .empty
      | _ =>
        match _ : fields.get? f.name with
        | some v => writeTyped p (d.site f) f.valueType v
        | none => if f.flag?.isSome then .empty else .failed (.missingField d.name f.name)
    field ++ writeFields p d fields rest
termination_by (sizeOf fields, todo.length)
decreasing_by
  · exact Prod.Lex.left _ _ (Fields.sizeOf_lt_of_get? (by assumption))
  · exact Prod.Lex.right _ (by simp)

end

def write (p : PlanSet) (value : Value) : Output :=
  writeGeneric p .top value

def encode (p : PlanSet) (value : Value) : Except CodecError (List UInt8) :=
  (p.write value).toExcept

def encodeInto (p : PlanSet) (value : Value) (buffer : List UInt8) : Output :=
  .ofBytes buffer ++ p.write value

end PlanSet

end TypeLang
