import Mathlib.Data.List.Forall2
import Mathlib.Data.List.Perm.Basic
import TypeLang.Proofs.Codec.Fields
import TypeLang.Proofs.Wire.JsonRoundTrip

/-!
# Canonical values

`Canonical p slot v` says that `v` is a value as a program would build it for a slot: it is
of the declared type, an object has what its declaration asks for and nothing else, and fields that
share a bit are there together. Where no type is declared, `v` tells its own type and is no vector,
because the items of such a vector may be taken for numbers.

`Value.Same` is equality of values up to the order in which the fields of objects were set.
-/

namespace TypeLang

namespace Value

/-- The values are equal but for the order of fields. -/
inductive Same : Value → Value → Prop
  | refl (v : Value) : Same v v
  | vector {items others : List Value} (length : items.length = others.length)
      (each : ∀ i (h : i < items.length) (h' : i < others.length), Same items[i] others[i]) :
      Same (.vector items) (.vector others)
  | object {id : UInt32} {fields others : Fields}
      (keys : (fields.map (·.1)).Perm (others.map (·.1)))
      (values : ∀ name v w, fields.get? name = some v → others.get? name = some w → Same v w) :
      Same (.object id fields) (.object id others)

theorem Same.of_forall₂ {items others : List Value} (h : List.Forall₂ Same items others) :
    Same (.vector items) (.vector others) := by
  refine .vector h.length_eq fun i hi hi' => ?_
  exact (List.forall₂_iff_get.mp h).2 i hi hi'

end Value

/-- The value is one of the primitive type, short enough to be written. A flags word has no value of
its own, and `Object` takes values that tell their own type. -/
def Primitive.Admits : Primitive → Value → Prop
  | .int, .int _ => True
  | .long, .long _ => True
  | .double, .double _ => True
  | .bool, .bool _ => True
  | .trueLiteral, .bool v => v = true
  | .bytes, .bytes v => v.length ≤ Wire.maxPayload
  | .string, .string v => v.utf8ByteSize ≤ Wire.maxPayload
  | .int128, .int128 _ => True
  | .int256, .int256 _ => True
  | .json, .json v => v.Fits
  | _, _ => False

structure Layout.Admits (l : Layout) (fields : Fields) : Prop where
  distinct : (fields.map (·.1)).Nodup
  declared : ∀ name ∈ fields.map (·.1), ∃ f ∈ l.fields, f.name = name ∧
    f.valueType ≠ .primitive .flags
  required : ∀ f ∈ l.fields, f.flag? = none → f.valueType ≠ .primitive .flags →
    fields.contains f.name
  /-- A bit has a value whether it is set or not. -/
  bits : ∀ f ∈ l.fields, f.flag?.isSome → f.valueType = .primitive .trueLiteral →
    ∃ v, fields.get? f.name = some (.bool v)
  /-- Fields that share a bit are there together. -/
  shared : ∀ f ∈ l.fields, ∀ g ∈ l.fields, f.flag?.isSome → f.flag? = g.flag? →
    f.valueType ≠ .primitive .flags → g.valueType ≠ .primitive .flags →
    l.isPresent fields f.name = l.isPresent fields g.name

/-- Where a value stands, by what is known of its type. -/
inductive Slot where
  /-- Where the bytes of the value have to tell its type. -/
  | generic (site : Site)
  /-- Where a type is declared. -/
  | typed (site : Site) (type : TypeExpr)
  /-- Behind the identifier of an object, or where it has none. -/
  | body (d : DeclarationPlan)

def FieldPlan.IsBit (f : FieldPlan) : Prop :=
  f.flag?.isSome ∧ f.valueType = .primitive .trueLiteral

inductive Value.HasVector : Value → Prop
  | vector (items : List Value) : HasVector (.vector items)
  | field {id : UInt32} {fields : Fields} {name : String} {v : Value} (mem : (name, v) ∈ fields)
      (there : HasVector v) : HasVector (.object id fields)

namespace PlanSet

/-- The value is one as it should be in the slot. -/
inductive Canonical (p : PlanSet) : Slot → Value → Prop
  | primitive {site : Site} {kind : Primitive} {v : Value} (admits : kind.Admits v) :
      Canonical p (.typed site (.primitive kind)) v
  | anyObject {site : Site} {v : Value} (generic : Canonical p (.generic site) v) :
      Canonical p (.typed site (.primitive .object)) v
  | var {site : Site} {name : String} {v : Value} (generic : Canonical p (.generic site) v) :
      Canonical p (.typed site (.var name)) v
  | flag {site : Site} {flag : Flag} {inner : TypeExpr} {v : Value}
      (typed : Canonical p (.typed site inner) v) :
      Canonical p (.typed site (.flag flag inner)) v
  | vector {site : Site} {inner : TypeExpr} {boxed : Bool} {items : List Value}
      (length : items.length < 2 ^ 31)
      (each : ∀ item ∈ items, Canonical p (.typed site inner) item) :
      Canonical p (.typed site (.vector inner boxed)) (.vector items)
  | boxed {site : Site} {name : QualifiedName} {d : DeclarationPlan} {fields : Fields}
      (declared : p.typed site name d.id = .ok d)
      (body : Canonical p (.body d) (.object d.id fields)) :
      Canonical p (.typed site (.named name false)) (.object d.id fields)
  | bare {site : Site} {name : QualifiedName} {d : DeclarationPlan} {fields : Fields}
      (declared : p.bare site.schemaPrefix name = .ok d)
      (body : Canonical p (.body d) (.object d.id fields)) :
      Canonical p (.typed site (.named name true)) (.object d.id fields)
  | bool {site : Site} (v : Bool) : Canonical p (.generic site) (.bool v)
  | json {site : Site} {j : JsonValue} (fits : j.Fits) : Canonical p (.generic site) (.json j)
  | object {site : Site} {d : DeclarationPlan} {fields : Fields}
      (dispatched : p.dispatched d.id = .ok d) (notJson : d.id ∉ Wire.jsonIds)
      (body : Canonical p (.body d) (.object d.id fields)) :
      Canonical p (.generic site) (.object d.id fields)
  | body {d : DeclarationPlan} {fields : Fields} (member : d ∈ p.declarations)
      (admits : d.layout.Admits fields)
      (values : ∀ f ∈ d.layout.fields, ¬f.IsBit → ∀ v, fields.get? f.name = some v →
        Canonical p (.typed (d.site f) f.valueType) v) :
      Canonical p (.body d) (.object d.id fields)

inductive GenericVector (p : PlanSet) : Slot → Value → Prop
  | here {site : Site} (items : List Value) : GenericVector p (.generic site) (.vector items)
  | object {site : Site} {d : DeclarationPlan} {fields : Fields}
      (dispatched : p.dispatched d.id = .ok d)
      (body : GenericVector p (.body d) (.object d.id fields)) :
      GenericVector p (.generic site) (.object d.id fields)
  | anyObject {site : Site} {v : Value} (generic : GenericVector p (.generic site) v) :
      GenericVector p (.typed site (.primitive .object)) v
  | var {site : Site} {name : String} {v : Value} (generic : GenericVector p (.generic site) v) :
      GenericVector p (.typed site (.var name)) v
  | flag {site : Site} {flag : Flag} {inner : TypeExpr} {v : Value}
      (typed : GenericVector p (.typed site inner) v) :
      GenericVector p (.typed site (.flag flag inner)) v
  | item {site : Site} {inner : TypeExpr} {boxed : Bool} {items : List Value} {item : Value}
      (mem : item ∈ items) (typed : GenericVector p (.typed site inner) item) :
      GenericVector p (.typed site (.vector inner boxed)) (.vector items)
  | boxed {site : Site} {name : QualifiedName} {d : DeclarationPlan} {fields : Fields}
      (declared : p.typed site name d.id = .ok d)
      (body : GenericVector p (.body d) (.object d.id fields)) :
      GenericVector p (.typed site (.named name false)) (.object d.id fields)
  | bare {site : Site} {name : QualifiedName} {d : DeclarationPlan} {fields : Fields}
      (declared : p.bare site.schemaPrefix name = .ok d)
      (body : GenericVector p (.body d) (.object d.id fields)) :
      GenericVector p (.typed site (.named name true)) (.object d.id fields)
  | field {d : DeclarationPlan} {fields : Fields} {f : FieldPlan} {v : Value}
      (mem : f ∈ d.layout.fields) (get : fields.get? f.name = some v)
      (typed : GenericVector p (.typed (d.site f) f.valueType) v) :
      GenericVector p (.body d) (.object d.id fields)

theorem GenericVector.hasVector {p : PlanSet} {slot : Slot} {v : Value}
    (h : p.GenericVector slot v) : v.HasVector := by
  induction h with
  | here items => exact .vector items
  | item => exact .vector _
  | field _ get _ ih => exact .field (Fields.mem_of_get? get) ih
  | object _ _ ih => exact ih
  | anyObject _ ih => exact ih
  | var _ ih => exact ih
  | flag _ ih => exact ih
  | boxed _ _ ih => exact ih
  | bare _ _ ih => exact ih

inductive Arranged (p : PlanSet) : Value → Prop
  | vector {items : List Value} (each : ∀ item ∈ items, Arranged p item) :
      Arranged p (.vector items)
  | object {d : DeclarationPlan} {fields : Fields} (member : d ∈ p.declarations)
      (keys : (fields.map (·.1)).Sublist (d.layout.fields.map (·.name)))
      (values : ∀ name v, fields.get? name = some v → Arranged p v) :
      Arranged p (.object d.id fields)
  | int (n : Int32) : Arranged p (.int n)
  | long (n : Int64) : Arranged p (.long n)
  | double (bits : UInt64) : Arranged p (.double bits)
  | bool (b : Bool) : Arranged p (.bool b)
  | bytes (payload : List UInt8) : Arranged p (.bytes payload)
  | string (text : String) : Arranged p (.string text)
  | int128 (bytes : Vector UInt8 16) : Arranged p (.int128 bytes)
  | int256 (bytes : Vector UInt8 32) : Arranged p (.int256 bytes)
  | json (j : JsonValue) : Arranged p (.json j)

theorem eq_of_same_of_arranged {schemas : List Schema} {capabilities : Capabilities} {p : PlanSet}
    (hp : compile schemas capabilities = .ok p)
    (hdistinct : ∀ d ∈ p.declarations, d.layout.Distinct) {v w : Value} (h : v.Same w)
    (hv : p.Arranged v) (hw : p.Arranged w) : v = w := by
  induction h with
  | refl => rfl
  | @vector items others length _ ih =>
      cases hv with
      | vector hitems =>
          cases hw with
          | vector hothers =>
              congr 1
              refine List.ext_getElem length fun i h h' => ?_
              exact ih i h h' (hitems _ (List.getElem_mem h)) (hothers _ (List.getElem_mem h'))
  | @object id fields others keys _ ih =>
      cases hv with
      | @object d _ member sublist values =>
          generalize hid : d.id = id at hw
          cases hw with
          | @object e _ member' sublist' values' =>
              obtain rfl := eq_of_id_eq hp member member' hid
              have hnames : (d.layout.fields.map (·.name)).Nodup := hdistinct d member
              have hkeys := Association.eq_of_sublist_of_perm hnames sublist sublist' keys
              have hvalues : ∀ name v w, fields.get? name = some v → others.get? name = some w →
                  v = w := by
                intro name v w hv hw
                exact ih name v w hv hw (values name v hv) (values' name w hw)
              rw [Association.eq_of_keys_eq (sublist.nodup hnames) hkeys hvalues]

end PlanSet

end TypeLang
