import TypeLang.Codec.Reference
import TypeLang.Value

/-!
# Sizes of values

How many bytes a value takes, found by the size formulas of the declarations and without writing it.
A field that takes the same number of bytes in every value is not looked into.
-/

namespace TypeLang.PlanSet

def primitiveSize (site : Site) : Primitive → Value → Except CodecError Nat
  | .int, .int _ => .ok 4
  | .long, .long _ => .ok 8
  | .double, .double _ => .ok 8
  | .bool, .bool _ => .ok 4
  | .bytes, .bytes v => return Wire.payloadSize (← site.checkLength v.length)
  | .string, .string v => return Wire.payloadSize (← site.checkLength v.utf8ByteSize)
  | .int128, .int128 _ => .ok 16
  | .int256, .int256 _ => .ok 32
  | .json, .json v => .ok v.encodedSize
  | .trueLiteral, _ => .ok 0
  | kind, _ => .error (.mismatch site.field (.primitive kind))

mutual

def genericSize (p : PlanSet) (site : Site) (value : Value) : Except CodecError Nat :=
  match value with
  | .object id fields => do objectSize p (← p.dispatched id) fields
  | .bool _ => .ok 4
  | .json v => .ok v.encodedSize
  | .vector items => return 8 + (← genericItemsSize p site items)
  | v => .error (.notSelfDescribing site.field v.label)
termination_by (sizeOf value, 0)

def genericItemsSize (p : PlanSet) (site : Site) (items : List Value) : Except CodecError Nat :=
  match items with
  | [] => .ok 0
  | .int _ :: rest => return 4 + (← genericItemsSize p site rest)
  | .long _ :: rest => return 8 + (← genericItemsSize p site rest)
  | item :: rest => return (← genericSize p site item) + (← genericItemsSize p site rest)
termination_by (sizeOf items, 0)

def typedSize (p : PlanSet) (site : Site) (type : TypeExpr) (value : Value) :
    Except CodecError Nat :=
  match type, value with
  | .primitive .object, v => genericSize p site v
  | .primitive kind, v => primitiveSize site kind v
  | .vector inner boxed, .vector items =>
    return (if boxed then 8 else 4) + (← itemsSize p site inner items)
  | .var _, v => genericSize p site v
  | .named name true, .object _ fields => do
    return (← objectSize p (← p.bare site.schemaPrefix name) fields) - Layout.idSize
  | .named name false, .object id fields => do objectSize p (← p.typed site name id) fields
  | .flag _ inner, v => typedSize p site inner v
  | t, _ => .error (.mismatch site.field t)
termination_by (sizeOf value, sizeOf type)

/-- The size of the items of a vector whose item type is declared. -/
def itemsSize (p : PlanSet) (site : Site) (type : TypeExpr) (items : List Value) :
    Except CodecError Nat :=
  match items with
  | [] => .ok 0
  | item :: rest => return (← typedSize p site type item) + (← itemsSize p site type rest)
termination_by (sizeOf items, 0)

/-- The size of an object of a declaration, with the identifier. -/
def objectSize (p : PlanSet) (d : DeclarationPlan) (fields : Fields) : Except CodecError Nat :=
  return d.layout.size.base + (← probesSize p d fields d.layout.size.probes)
termination_by (sizeOf fields, d.layout.size.probes.length + 1)

def probesSize (p : PlanSet) (d : DeclarationPlan) (fields : Fields) (probes : List Probe) :
    Except CodecError Nat :=
  match probes with
  | [] => .ok 0
  | probe :: rest => return (← probeSize p d fields probe) + (← probesSize p d fields rest)
termination_by (sizeOf fields, probes.length)

/-- What a probe of a declaration counts in the fields of an object. -/
def probeSize (p : PlanSet) (d : DeclarationPlan) (fields : Fields) (probe : Probe) :
    Except CodecError Nat :=
  match d.layout.fields[probe.index]? with
  | none => .ok 0
  | some f =>
    match _ : fields.get? f.name with
    | none => if probe.condition.isSome then .ok 0 else .error (.missingField d.name f.name)
    | some v =>
      match f.kind with
      | .fixed size => .ok size
      | _ => typedSize p (d.site f) f.valueType v
termination_by (sizeOf fields, 0)
decreasing_by
  exact Prod.Lex.left _ _ (Fields.sizeOf_lt_of_get? (by assumption))

end

def size (p : PlanSet) (value : Value) : Except CodecError Nat :=
  genericSize p .top value

end TypeLang.PlanSet
