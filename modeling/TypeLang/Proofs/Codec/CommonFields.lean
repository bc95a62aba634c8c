import Mathlib
import TypeLang.Proofs.Codec.Decoded
import TypeLang.Proofs.Codec.TypeSafety
import TypeLang.Proofs.Plan.CommonFields

/-!
# Common fields of objects

Those who handle the values of an interface get at its common fields without asking which
constructor they have before them. `commonField_there` says that they may: whatever bytes an object
of a member is decoded from, and whatever object is written as one, a common field that is not
optional is there.

For decoding, this comes from what holds of all objects: a field that has no flag is there, and so
is the value of a flag itself (`Whole`). An object that is written may leave out the latter.
-/

namespace TypeLang

open Wire (Yields)
open Decoding (wire)

inductive Value.Within : Value → Value → Prop
  | refl (v : Value) : Within v v
  | item {part item : Value} {items : List Value} (mem : item ∈ items)
      (within : Within part item) : Within part (.vector items)
  | field {part v : Value} {id : UInt32} {fields : Fields} {name : String}
      (mem : (name, v) ∈ fields) (within : Within part v) : Within part (.object id fields)

/-- Every object has the field when it is read: it has no flag and is no flags word, or it is a
flag's own value. -/
def FieldPlan.IsCertain (f : FieldPlan) : Prop :=
  f.valueType = .primitive .trueLiteral ∨ f.flag? = none ∧ f.valueType ≠ .primitive .flags

namespace PlanSet

variable {schemas : List Schema} {capabilities : Capabilities} {p : PlanSet}

/-- The value is of the type. Of an object this says whose constructor it is, and nothing of what is
in it. -/
inductive HasType (p : PlanSet) (site : Site) : TypeExpr → Value → Prop
  | trueLiteral (b : Bool) : HasType p site (.primitive .trueLiteral) (.bool b)
  | primitive {kind : Primitive} {v : Value} (admits : kind.Admits v) :
      HasType p site (.primitive kind) v
  | anyObject {v : Value} (tells : v.isSelfDescribing) : HasType p site (.primitive .object) v
  | var {name : String} {v : Value} (tells : v.isSelfDescribing) : HasType p site (.var name) v
  | vector {inner : TypeExpr} {boxed : Bool} {items : List Value}
      (each : ∀ item ∈ items, HasType p site inner item) :
      HasType p site (.vector inner boxed) (.vector items)
  | boxed {name : QualifiedName} {d : DeclarationPlan} (fields : Fields)
      (declared : p.typed site name d.id = .ok d) :
      HasType p site (.named name false) (.object d.id fields)
  | bare {name : QualifiedName} {d : DeclarationPlan} (fields : Fields)
      (declared : p.bare site.schemaPrefix name = .ok d) :
      HasType p site (.named name true) (.object d.id fields)

/-- Every object in the value has the certain fields of its declaration, with values of their
types. -/
inductive Whole (p : PlanSet) : Value → Prop
  | leaf {v : Value} (leaf : v.IsLeaf) : Whole p v
  | vector {items : List Value} (each : ∀ item ∈ items, Whole p item) : Whole p (.vector items)
  | object {d : DeclarationPlan} {fields : Fields} (member : d ∈ p.declarations)
      (certain : ∀ f ∈ d.layout.fields, f.IsCertain →
        ∃ v, fields.get? f.name = some v ∧ p.HasType (d.site f) f.valueType v)
      (each : ∀ name v, (name, v) ∈ fields → Whole p v) : Whole p (.object d.id fields)

/-- The value is decoded from some bytes: all of them, the first of them, or as the result of a
method. -/
inductive Decodes (p : PlanSet) (bytes : List UInt8) (v : Value) : Prop
  | alone (decoded : p.decode bytes = .ok v)
  | front {c : Wire.Cursor} (decoded : p.decodeFrom (.ofBytes bytes) = .ok v c)
  | result {id : UInt32} (decoded : p.decodeResult id bytes = .ok v)

theorem Whole.of_within {v part : Value} (hwithin : part.Within v) (h : p.Whole v) :
    p.Whole part := by
  induction hwithin with
  | refl => exact h
  | item mem _ ih =>
      cases h with
      | leaf leaf => exact leaf.elim
      | vector each => exact ih (each _ mem)
  | field mem _ ih =>
      cases h with
      | leaf leaf => exact leaf.elim
      | object _ _ each => exact ih (each _ _ mem)

/-! ## Reading -/

theorem isLeaf_of_admits {kind : Primitive} {v : Value} (h : kind.Admits v) : v.IsLeaf := by
  unfold Primitive.Admits at h
  split at h
  case h_11 => exact h.elim
  all_goals trivial

/-- What is read of a primitive type is of that type, but for flags words. -/
theorem readPrimitive_yields_hasType (generic : Decoding Value) {kind : Primitive} (site : Site)
    (hobject : kind ≠ .object) :
    Yields (readPrimitive generic kind) fun v _ =>
      (kind ≠ .flags → p.HasType site (.primitive kind) v) ∧ p.Whole v := by
  by_cases hword : kind = .flags
  · exact (readPrimitive_yields_leaf generic hobject).mono fun _ _ hleaf =>
      ⟨fun hne => absurd hword hne, .leaf hleaf⟩
  · apply (readPrimitive_yields (p := p) generic site hobject hword).mono
    intro v _ hdecoded
    have hadmits : kind.Admits v := by
      cases hdecoded.canonical fun hvector => by cases hvector; exact hobject rfl with
      | primitive admits => exact admits
      | anyObject => exact absurd rfl hobject
    exact ⟨fun _ => .primitive hadmits, .leaf (isLeaf_of_admits hadmits)⟩

structure DepthWhole (p : PlanSet) (depth : Nat) : Prop where
  generic : Yields (readGeneric p depth) fun v _ => v.isSelfDescribing ∧ p.Whole v
  body : ∀ d ∈ p.declarations, Yields (readBody p depth d) fun v _ =>
    ∃ fields, v = .object d.id fields ∧ p.Whole v

theorem readTyped_yields_whole (hp : compile schemas capabilities = .ok p) {depth : Nat}
    (h : p.DepthWhole depth) (site : Site) (type : TypeExpr) :
    Yields (readTyped p (readBody p depth) (readGeneric p depth) site type) fun v _ =>
      (type.Plain → p.HasType site type v) ∧ p.Whole v := by
  induction type with
  | primitive kind =>
      by_cases hobject : kind = .object
      · subst hobject
        exact h.generic.mono fun _ _ hv => ⟨fun _ => .anyObject hv.1, hv.2⟩
      · exact readPrimitive_yields_hasType _ site hobject
  | flag flag inner ih => exact Yields.mono ih fun _ _ hv => ⟨False.elim, hv.2⟩
  | var name => exact h.generic.mono fun _ _ hv => ⟨fun _ => .var hv.1, hv.2⟩
  | vector inner boxed ih =>
      rw [readTyped_vector]
      refine Yields.bind (Decoding.forward_vectorMark boxed) fun _ _ _ => ?_
      refine (Decoding.wire_yields Wire.Read.count_yields).bind fun n _ _ => ?_
      apply (Wire.Read.items_yields ih n).bind_pure
      rintro items _ ⟨-, sizes, hitems, -⟩
      have heach (item : Value) (hmem : item ∈ items) :
          (inner.Plain → p.HasType site inner item) ∧ p.Whole item := by
        obtain ⟨_, -, hitem⟩ := exists_mem_of_forall₂ hitems.flip hmem
        exact hitem
      exact ⟨fun hplain => .vector fun item hmem => (heach item hmem).1 hplain,
        .vector fun item hmem => (heach item hmem).2⟩
  | named name bare =>
      cases bare with
      | true =>
          apply (Decoding.ofExcept_yields _).bind
          rintro d _ ⟨hd, -⟩
          apply (h.body d (mem_of_bare hd)).mono
          rintro _ _ ⟨fields, rfl, hwhole⟩
          exact ⟨fun _ => .bare fields hd, hwhole⟩
      | false =>
          refine (Decoding.wire_yields Wire.Read.uint32_yields).bind fun id _ _ => ?_
          apply (Decoding.ofExcept_yields _).bind
          rintro d _ ⟨hd, -⟩
          have hdispatched := dispatched_of_typed hd
          obtain ⟨rfl, -⟩ := id_of_dispatched hp hdispatched
          apply (h.body d (mem_of_dispatched hdispatched)).mono
          rintro _ _ ⟨fields, rfl, hwhole⟩
          exact ⟨fun _ => .boxed fields hd, hwhole⟩

/-- An object whose fields were read. Names are not repeated, so that each field is what was read of
it, and a field that has no flag was read. -/
theorem whole_of_fieldsRead (hp : compile schemas capabilities = .ok p) {d : DeclarationPlan}
    (hd : d ∈ p.declarations) (hdistinct : d.layout.Distinct) {out : Fields} {taken : Nat}
    (h : FieldsRead (fun f v _ => p.HasType (d.site f) f.valueType v ∧ p.Whole v) []
      d.layout.fields out taken) : p.Whole (.object d.id out) := by
  have hplanned := planned_of_mem hp hd
  obtain ⟨final, -, hentries⟩ := h.entries hdistinct (wordsInFront_of_planned hplanned hdistinct)
  refine .object hd (fun f hf hcertain => ?_) fun name v hmem => ?_
  · have hentry := hentries f hf
    generalize out.get? f.name = entry at hentry ⊢
    cases hentry with
    | word type =>
        rcases hcertain with hbit | ⟨-, hword⟩
        · rw [type] at hbit
          cases hbit
        · exact absurd type hword
    | bit kind =>
        rw [(hplanned.treatment hf).type_of_bit kind]
        exact ⟨_, rfl, .trueLiteral _⟩
    | value _ _ _ isGood => exact ⟨_, rfl, isGood.1⟩
    | absent _ bit there =>
        rcases hcertain with hbit | ⟨hflag, -⟩
        · exact absurd hbit bit
        · rw [isThere, hflag] at there
          cases there
  · obtain ⟨f, hf, rfl⟩ := List.mem_map.mp (h.keys.subset (List.mem_map_of_mem hmem))
    have hget : out.get? f.name = some v :=
      (Association.lookup_eq_some_iff_mem (h.keys.nodup hdistinct)).mpr hmem
    have hentry := hentries f hf
    rw [hget] at hentry
    cases hentry with
    | bit kind => exact .leaf trivial
    | value _ _ _ isGood => exact isGood.2

theorem genericItems_yields_whole {read : Decoding Value} (n : Nat)
    (hread : Yields read fun v _ => p.Whole v) :
    Yields (do return .vector (← Wire.Read.items read n)) fun v _ =>
      v.isSelfDescribing ∧ p.Whole v := by
  apply (Wire.Read.items_yields hread n).bind_pure
  rintro items _ ⟨-, sizes, hitems, -⟩
  refine ⟨rfl, .vector fun item hmem => ?_⟩
  obtain ⟨_, -, hitem⟩ := exists_mem_of_forall₂ hitems.flip hmem
  exact hitem

theorem readGeneric_succ_yields_whole {depth : Nat} (h : p.DepthWhole depth) :
    Yields (readGeneric p (depth + 1)) fun v _ => v.isSelfDescribing ∧ p.Whole v := by
  have hlong : Yields (Value.long <$> wire Wire.Read.int64) fun v _ => p.Whole v :=
    (Decoding.wire_yields Wire.Read.int64_yields).map fun _ _ _ => .leaf trivial
  have hint : Yields (Value.int <$> wire Wire.Read.int32) fun v _ => p.Whole v :=
    (Decoding.wire_yields Wire.Read.int32_yields).map fun _ _ _ => .leaf trivial
  rw [readGeneric]
  refine (Decoding.wire_yields Wire.Read.peekUInt32_yields).bind fun _ _ _ => ?_
  refine .ite (fun _ => ?_) fun _ => .ite (fun _ => ?_) fun _ => .ite (fun _ => ?_) fun _ => ?_
  · exact (Decoding.wire_yields Wire.Read.bool_yields).bind_pure fun _ _ _ => ⟨rfl, .leaf trivial⟩
  · refine (Decoding.wire_yields (Wire.Read.skip_yields 4)).bind fun _ _ _ => ?_
    refine (Decoding.wire_yields Wire.Read.count_yields).bind fun n _ _ => ?_
    refine Decoding.get_yields.bind fun _ _ _ => ?_
    refine .ite (fun _ => genericItems_yields_whole n hlong) fun _ => ?_
    refine .ite (fun _ => genericItems_yields_whole n hint) fun _ => ?_
    exact genericItems_yields_whole n (h.generic.mono fun _ _ hv => hv.2)
  · exact (Decoding.wire_yields JsonValue.read_yields).bind_pure
      fun _ _ _ => ⟨rfl, .leaf trivial⟩
  · refine (Decoding.wire_yields Wire.Read.uint32_yields).bind fun id _ _ => ?_
    apply (Decoding.ofExcept_yields _).bind
    rintro d _ ⟨hd, -⟩
    apply (h.body d (mem_of_dispatched hd)).mono
    rintro _ _ ⟨fields, rfl, hwhole⟩
    exact ⟨rfl, hwhole⟩

theorem readBody_succ_yields_whole (hp : compile schemas capabilities = .ok p)
    (hread : ∀ s ∈ schemas, s.IsRead) {depth : Nat} (h : p.DepthWhole depth)
    {d : DeclarationPlan} (hd : d ∈ p.declarations) (hdistinct : d.layout.Distinct) :
    Yields (readBody p (depth + 1) d) fun v _ =>
      ∃ fields, v = .object d.id fields ∧ p.Whole v := by
  have hvalue (f : FieldPlan) (hf : f ∈ d.layout.fields)
      (hword : f.valueType ≠ .primitive .flags) :
      Yields (readTyped p (readBody p depth) (readGeneric p depth) (d.site f) f.valueType)
        fun v _ => p.HasType (d.site f) f.valueType v ∧ p.Whole v :=
    (readTyped_yields_whole hp h _ _).mono fun _ _ hv =>
      ⟨hv.1 (plain_of_mem hp hread hd hf hword), hv.2⟩
  have hdone : ∀ name ∈ ([] : Fields).map (·.1), name ∉ d.layout.fields.map (·.name) := by
    intro name hname
    cases hname
  rw [readBody_succ]
  refine (readFields_yields (fun f hf => (planned_of_mem hp hd).treatment hf)
    (fun f hf hword _ => hvalue f hf hword) hdistinct [] hdone).bind_pure ?_
  rintro out taken ⟨_, rfl, hout⟩
  exact ⟨out, rfl, whole_of_fieldsRead hp hd hdistinct hout⟩

section

variable (hp : compile schemas capabilities = .ok p) (hread : ∀ s ∈ schemas, s.IsRead)
  (hnames : ∀ s ∈ schemas, ∀ decl ∈ s.declarations, (decl.params.map (·.name)).Nodup)

include hp hread hnames

theorem depthWhole (depth : Nat) : p.DepthWhole depth := by
  induction depth with
  | zero =>
      constructor
      · rw [readGeneric]
        exact .throw _
      · intro d _
        rw [readBody]
        exact .throw _
  | succ depth ih =>
      constructor
      · exact readGeneric_succ_yields_whole ih
      · exact fun d hd =>
          readBody_succ_yields_whole hp hread ih hd (distinct_of_params hp hnames d hd)

theorem whole_of_decodes {bytes : List UInt8} {v : Value} (h : p.Decodes bytes v) : p.Whole v := by
  have hdepth := depthWhole hp hread hnames
  have hfrom : Yields p.decodeFrom fun v _ => p.Whole v :=
    fun c w c' hc => ((hdepth (p.maxDepth c.remaining)).generic.mono fun _ _ hv => hv.2) c w c' hc
  cases h with
  | alone decoded =>
      obtain ⟨_, -, hwhole⟩ := Decoding.exists_of_run hfrom decoded
      exact hwhole
  | front decoded =>
      obtain ⟨_, -, -, hwhole⟩ := hfrom _ _ _ decoded
      exact hwhole
  | result decoded =>
      obtain ⟨d, -, hrun⟩ := bind_eq_ok.mp decoded
      obtain ⟨_, -, -, hwhole⟩ :=
        Decoding.exists_of_run (readTyped_yields_whole hp (hdepth _) _ _) hrun
      exact hwhole

end

/-! ## Writing -/

/-- Writing the value in the slot, the object with the fields `entries` is written by the plan `d`.
-/
inductive WritesAs (p : PlanSet) (d : DeclarationPlan) (entries : Fields) : Slot → Value → Prop
  | here (id : UInt32) : WritesAs p d entries (.body d) (.object id entries)
  | object {site : Site} {id : UInt32} {e : DeclarationPlan} {fields : Fields}
      (dispatched : p.dispatched id = .ok e)
      (inside : WritesAs p d entries (.body e) (.object id fields)) :
      WritesAs p d entries (.generic site) (.object id fields)
  | genericItem {site : Site} {items : List Value} {item : Value} (mem : item ∈ items)
      (inside : WritesAs p d entries (.generic site) item) :
      WritesAs p d entries (.generic site) (.vector items)
  | anyObject {site : Site} {v : Value} (inside : WritesAs p d entries (.generic site) v) :
      WritesAs p d entries (.typed site (.primitive .object)) v
  | var {site : Site} {name : String} {v : Value}
      (inside : WritesAs p d entries (.generic site) v) :
      WritesAs p d entries (.typed site (.var name)) v
  | flag {site : Site} {flag : Flag} {inner : TypeExpr} {v : Value}
      (inside : WritesAs p d entries (.typed site inner) v) :
      WritesAs p d entries (.typed site (.flag flag inner)) v
  | item {site : Site} {inner : TypeExpr} {boxed : Bool} {items : List Value} {item : Value}
      (mem : item ∈ items) (inside : WritesAs p d entries (.typed site inner) item) :
      WritesAs p d entries (.typed site (.vector inner boxed)) (.vector items)
  | boxed {site : Site} {name : QualifiedName} {id : UInt32} {e : DeclarationPlan}
      {fields : Fields} (declared : p.typed site name id = .ok e)
      (inside : WritesAs p d entries (.body e) (.object id fields)) :
      WritesAs p d entries (.typed site (.named name false)) (.object id fields)
  | bare {site : Site} {name : QualifiedName} {id : UInt32} {e : DeclarationPlan}
      {fields : Fields} (declared : p.bare site.schemaPrefix name = .ok e)
      (inside : WritesAs p d entries (.body e) (.object id fields)) :
      WritesAs p d entries (.typed site (.named name true)) (.object id fields)
  | field {e : DeclarationPlan} {id : UInt32} {fields : Fields} {f : FieldPlan} {v : Value}
      (mem : f ∈ e.layout.fields) (isValue : f.isValue) (get : fields.get? f.name = some v)
      (inside : WritesAs p d entries (.typed (e.site f) f.valueType) v) :
      WritesAs p d entries (.body e) (.object id fields)

theorem succeeds_of_mem_writeItems {site : Site} {inner : TypeExpr} {items : List Value}
    {bytes : List UInt8} (h : p.writeItems site inner items = .ofBytes bytes) {item : Value}
    (hitem : item ∈ items) : ∃ part, p.writeTyped site inner item = .ofBytes part := by
  induction items generalizing bytes with
  | nil => cases hitem
  | cons first items ih =>
      rw [writeItems] at h
      obtain ⟨front, back, hfront, hback, rfl⟩ := Output.append_eq_ofBytes.mp h
      rcases List.mem_cons.mp hitem with rfl | hitem
      · exact ⟨front, hfront⟩
      · exact ih hback hitem

/-- Numbers are written as they are, and any other item as it would be alone. -/
theorem succeeds_of_mem_writeGenericItems {site : Site} {items : List Value} {bytes : List UInt8}
    (h : p.writeGenericItems site items = .ofBytes bytes) {item : Value} (hitem : item ∈ items)
    (htells : item.isSelfDescribing) :
    ∃ part, p.writeGeneric site item = .ofBytes part := by
  induction items generalizing bytes with
  | nil => cases hitem
  | cons first items ih =>
      unfold writeGenericItems at h
      split at h
      case h_1 heq => cases heq
      all_goals
        rename_i heq
        cases heq
        obtain ⟨front, back, hfront, hback, rfl⟩ := Output.append_eq_ofBytes.mp h
        rcases List.mem_cons.mp hitem with rfl | hitem
      case h_2.refl.inl | h_3.refl.inl => cases htells
      case h_4.refl.inl => exact ⟨front, hfront⟩
      all_goals exact ih hback hitem

theorem succeeds_of_mem_writeFields {d : DeclarationPlan} {fields : Fields} {todo : List FieldPlan}
    {bytes : List UInt8} (h : p.writeFields d fields todo = .ofBytes bytes) {f : FieldPlan}
    (hf : f ∈ todo) : ∃ part, p.writeField d fields f = .ofBytes part := by
  induction todo generalizing bytes with
  | nil => cases hf
  | cons first todo ih =>
      rw [writeFields_cons] at h
      obtain ⟨front, back, hfront, hback, rfl⟩ := Output.append_eq_ofBytes.mp h
      rcases List.mem_cons.mp hf with rfl | hf
      · exact ⟨front, hfront⟩
      · exact ih hback hf

theorem WritesAs.succeeds {d : DeclarationPlan} {entries : Fields} {slot : Slot} {v : Value}
    (h : p.WritesAs d entries slot v) {bytes : List UInt8}
    (hwrite : slot.write p v = .ofBytes bytes) :
    ∃ part, p.writeFields d entries d.layout.fields = .ofBytes part := by
  induction h generalizing bytes with
  | here => exact ⟨bytes, hwrite⟩
  | object dispatched _ ih =>
      rw [Slot.write, writeGeneric, dispatched] at hwrite
      obtain ⟨_, back, -, hback, -⟩ := Output.append_eq_ofBytes.mp hwrite
      exact ih hback
  | @genericItem _ _ item mem inside ih =>
      rw [Slot.write, writeGeneric] at hwrite
      obtain ⟨_, back, -, hback, -⟩ := Output.append_eq_ofBytes.mp hwrite
      have htells : item.isSelfDescribing := by cases inside <;> rfl
      obtain ⟨part, hpart⟩ := succeeds_of_mem_writeGenericItems hback mem htells
      exact ih hpart
  | anyObject _ ih =>
      rw [Slot.write, writeTyped] at hwrite
      exact ih hwrite
  | var _ ih =>
      rw [Slot.write, writeTyped] at hwrite
      split at hwrite
      · exact ih hwrite
      · exact (Output.failed_ne_ofBytes _ _ hwrite).elim
  | flag _ ih =>
      rw [Slot.write, writeTyped] at hwrite
      exact ih hwrite
  | item mem _ ih =>
      rw [Slot.write, writeTyped] at hwrite
      obtain ⟨_, back, -, hback, -⟩ := Output.append_eq_ofBytes.mp hwrite
      obtain ⟨part, hpart⟩ := succeeds_of_mem_writeItems hback mem
      exact ih hpart
  | boxed declared _ ih =>
      rw [Slot.write, writeTyped, declared] at hwrite
      obtain ⟨_, back, -, hback, -⟩ := Output.append_eq_ofBytes.mp hwrite
      exact ih hback
  | bare declared _ ih =>
      rw [Slot.write, writeTyped, declared] at hwrite
      exact ih hwrite
  | field mem isValue get _ ih =>
      obtain ⟨part, hpart⟩ := succeeds_of_mem_writeFields hwrite mem
      rw [writeField_value (FieldPlan.isValue_iff.mp isValue), get] at hpart
      exact ih hpart

theorem contains_of_writeFields {d : DeclarationPlan} {fields : Fields} {bytes : List UInt8}
    (h : p.writeFields d fields d.layout.fields = .ofBytes bytes) {f : FieldPlan}
    (hf : f ∈ d.layout.fields) (hvalue : (∃ size, f.kind = .fixed size) ∨ f.kind = .dynamic)
    (hflag : f.flag? = none) : fields.contains f.name := by
  obtain ⟨part, hpart⟩ := succeeds_of_mem_writeFields h hf
  rw [writeField_value hvalue] at hpart
  unfold Fields.contains
  split at hpart
  · rename_i hget
    rw [hget]
    rfl
  · rw [hflag] at hpart
    exact (Output.failed_ne_ofBytes _ _ hpart).elim

theorem WritesAs.member {d : DeclarationPlan} {entries : Fields} {slot : Slot} {v : Value}
    (h : p.WritesAs d entries slot v) (hslot : ∀ e, slot = .body e → e ∈ p.declarations) :
    d ∈ p.declarations := by
  induction h with
  | here => exact hslot d rfl
  | object dispatched _ ih =>
      exact ih fun e he => by
        cases he
        exact mem_of_dispatched dispatched
  | boxed declared _ ih =>
      exact ih fun e he => by
        cases he
        exact mem_of_dispatched (dispatched_of_typed declared)
  | bare declared _ ih =>
      exact ih fun e he => by
        cases he
        exact mem_of_bare declared
  | genericItem _ _ ih => exact ih nofun
  | anyObject _ ih => exact ih nofun
  | var _ ih => exact ih nofun
  | flag _ ih => exact ih nofun
  | item _ _ ih => exact ih nofun
  | field _ _ _ _ ih => exact ih nofun

/-! ## Common fields -/

/-- A common field that is not optional is there. Every object of a member that is decoded has it,
with a value of its type, and so has every object that is written as a member, unless the field is a
`true`. -/
theorem commonField_there (hp : compile schemas capabilities = .ok p)
    (hread : ∀ s ∈ schemas, s.IsRead)
    (hnames : ∀ s ∈ schemas, ∀ decl ∈ s.declarations, (decl.params.map (·.name)).Nodup)
    {t : TypePlan} (ht : t ∈ p.types) {commons : List CommonField} {members : List InterfaceMember}
    (hr : t.representation = .interface commons members) {f : CommonField} (hf : f ∈ commons)
    (hcertain : f.optional = false) :
    (∀ bytes v, p.Decodes bytes v →
      ∀ id (fields : Fields), (Value.object id fields).Within v → id ∈ members.map (·.id) →
        ∃ w, fields.get? f.name = some w ∧ p.HasType ⟨t.key.schemaPrefix, f.name⟩ f.type w) ∧
    ∀ v bytes, p.encode v = .ok bytes →
      ∀ d (fields : Fields), p.WritesAs d fields (.generic .top) v → d.id ∈ members.map (·.id) →
        f.type ≠ .primitive .trueLiteral → fields.contains f.name := by
  have hfield {d : DeclarationPlan} (hd : d ∈ p.declarations) (hid : d.id ∈ members.map (·.id)) :
      ∃ g ∈ d.layout.fields, f.Matches g.name g.type ∧
        d.site g = ⟨t.key.schemaPrefix, f.name⟩ ∧ g.valueType ≠ .primitive .flags := by
    obtain ⟨hplain, g, hg, hmatches, hsite⟩ :=
      exists_field_of_commonField hp ht hr hf hread hd (by rw [hr]; exact hid)
    refine ⟨g, hg, hmatches, hsite, fun hword => ?_⟩
    rw [← hmatches.erased] at hplain
    have hprimitive : g.type.erased = .primitive .flags := hword
    rw [hprimitive] at hplain
    exact hplain rfl
  constructor
  · intro bytes v hdecodes id fields hwithin hid
    cases (whole_of_decodes hp hread hnames hdecodes).of_within hwithin with
    | leaf leaf => exact leaf.elim
    | object hd certain =>
        obtain ⟨g, hg, hmatches, hsite, hword⟩ := hfield hd hid
        have hg' : g.IsCertain := by
          rcases hmatches.certain hcertain with hflag | htrue
          · exact .inr ⟨hflag, hword⟩
          · exact .inl (hmatches.erased.trans htrue)
        obtain ⟨w, hget, htype⟩ := certain g hg hg'
        rw [hmatches.name] at hget
        rw [hsite, show g.valueType = f.type from hmatches.erased] at htype
        exact ⟨w, hget, htype⟩
  · intro v bytes hencode d fields hwrites hid hbit
    have hd := hwrites.member nofun
    obtain ⟨part, hpart⟩ := hwrites.succeeds (Output.toExcept_eq_ok.mp hencode)
    obtain ⟨g, hg, hmatches, -, hword⟩ := hfield hd hid
    have hbit' : g.valueType ≠ .primitive .trueLiteral := fun htrue =>
      hbit (hmatches.erased.symm.trans htrue)
    have hkind := ((planned_of_mem hp hd).treatment hg).kind_of_value hword hbit'
    rw [← hmatches.name]
    exact contains_of_writeFields hpart hg hkind ((hmatches.certain hcertain).resolve_right hbit)

end PlanSet

/-! ## An example -/

def Schema.pets : Schema where
  config := {}
  layer := none
  constructors := [
    ⟨.constructor, 7, ⟨[], "dog"⟩,
      [⟨"flags", .primitive .flags⟩, ⟨"name", .primitive .string⟩,
        ⟨"good", .flag .lowest (.primitive .trueLiteral)⟩], .named ⟨[], "Pet"⟩ false⟩,
    ⟨.constructor, 8, ⟨[], "cat"⟩,
      [⟨"flags", .primitive .flags⟩,
        ⟨"good", .flag ⟨"flags", Fin.last 31⟩ (.primitive .trueLiteral)⟩,
        ⟨"name", .primitive .string⟩], .named ⟨[], "Pet"⟩ false⟩]
  methods := []

def PlanSet.pets : PlanSet :=
  (compile [.pets] {}).toOption.getD default

theorem compile_pets : compile [.pets] {} = .ok .pets := by
  rfl

namespace Schema

def petsText : String :=
  "[null,[
[\"7\",\"dog\",[[\"flags\",\"#\"],[\"name\",\"string\"],[\"good\",\"flags.0?true\"]],\"Pet\"],
[\"8\",\"cat\",[[\"flags\",\"#\"],[\"good\",\"flags.31?true\"],[\"name\",\"string\"]],\"Pet\"]]]"

private theorem parse_pets : (Json.parse? petsText).bind RawSchema.ofJson? =
    some ⟨none, [⟨.text "7", some "dog", [⟨"flags", "#"⟩, ⟨"name", "string"⟩,
      ⟨"good", "flags.0?true"⟩], "Pet"⟩, ⟨.text "8", some "cat", [⟨"flags", "#"⟩,
      ⟨"good", "flags.31?true"⟩, ⟨"name", "string"⟩], "Pet"⟩], []⟩ := by
  cbv

private theorem parse_goodDog : TypeExpr.parse .constructor [] "flags.0?true" =
    .ok (.flag .lowest (.primitive .trueLiteral)) := by
  cbv

private theorem parse_goodCat : TypeExpr.parse .constructor [] "flags.31?true" =
    .ok (.flag ⟨"flags", Fin.last 31⟩ (.primitive .trueLiteral)) := by
  cbv

theorem isRead_pets : pets.IsRead := by
  have hword : TypeExpr.parse .constructor [] "#" = .ok (.primitive .flags) := by
    rw [TypeExpr.parse, TypeExpr.parseChars]
    rfl
  have hname : TypeExpr.parse .constructor [] "string" = .ok (.primitive .string) := by
    rw [TypeExpr.parse, TypeExpr.parseChars]
    rfl
  have hpet : TypeExpr.parse .constructor [] "Pet" = .ok (.named ⟨[], "Pet"⟩ false) := by
    unfold TypeExpr.parse TypeExpr.parseChars
    rfl
  refine .inr ⟨{}, petsText, ?_⟩
  rw [ofJsonText, parse_pets]
  simp only [pure_bind]
  refine bind_eq_ok.mpr ⟨_, mapM_eq_ok.mpr (.cons ?_ (.cons ?_ .nil)), rfl⟩
  · refine RawEntry.declaration_eq_ok.mpr ⟨7, "dog", ⟨[], "dog"⟩, _, _, by decide, rfl, rfl,
      ?_, hpet, rfl⟩
    exact .cons ⟨rfl, hword⟩ (.cons ⟨rfl, hname⟩ (.cons ⟨rfl, parse_goodDog⟩ .nil))
  · refine RawEntry.declaration_eq_ok.mpr ⟨8, "cat", ⟨[], "cat"⟩, _, _, by decide, rfl, rfl,
      ?_, hpet, rfl⟩
    exact .cons ⟨rfl, hword⟩ (.cons ⟨rfl, parse_goodCat⟩ (.cons ⟨rfl, hname⟩ .nil))

end Schema

namespace PlanSet

def catFields : Fields :=
  [("good", .bool true), ("name", .string "Tom")]

def catBytes : List UInt8 :=
  [8, 0, 0, 0, 0, 0, 0, 128, 3, 84, 111, 109]

private theorem encode_cat : pets.encode (.object 8 catFields) = .ok catBytes := by
  have hcat : pets.dispatched 8 = .ok (pets.declarations.getD 1 default) := by
    rfl
  have hname (site : Site) : pets.writeTyped site (.primitive .string) (.string "Tom") =
      .ofBytes [3, 84, 111, 109] := by
    rw [writeTyped_primitive (by decide)]
    rfl
  rw [encode, write, writeGeneric, hcat]
  show (Output.ofBytes (Wire.uint32 8) ++ pets.writeFields _ _ [_, _, _]).toExcept = _
  rw [writeFields_cons, writeFields_cons, writeFields_cons, writeFields_nil, writeField_word rfl,
    writeField_bit rfl, writeField_value (.inr rfl)]
  exact congrArg (fun name => (.ofBytes (Wire.uint32 8) ++ (.ofBytes (Wire.uint32 0x80000000) ++
    (.empty ++ (name ++ .empty))) : Output).toExcept) (hname _)

/-- The name of a pet is a common field. A cat has one when it is read and when it is written. -/
theorem commonField_there_cat :
    let name : CommonField := ⟨"name", .primitive .string, false⟩
    (∃ t ∈ pets.types, ∃ commons members, t.representation = .interface commons members ∧
      name ∈ commons ∧ (8 : UInt32) ∈ members.map (·.id)) ∧
      pets.decode catBytes = .ok (.object 8 catFields) ∧
      pets.encode (.object 8 catFields) = .ok catBytes ∧
      (∃ w, catFields.get? "name" = some w ∧ pets.HasType ⟨"", "name"⟩ (.primitive .string) w) ∧
      catFields.contains "name" := by
  intro name
  let t := pets.types.headD default
  have ht : t ∈ pets.types := by
    decide
  have hr : t.representation = .interface
      [name, ⟨"good", .primitive .trueLiteral, false⟩] [⟨7, "dog", "Dog"⟩, ⟨8, "cat", "Cat"⟩] := by
    decide
  have hdecode : pets.decode catBytes = .ok (.object 8 catFields) := by
    rfl
  obtain ⟨d, hd, hid⟩ : ∃ d, pets.dispatched 8 = .ok d ∧ d.id = 8 := ⟨_, rfl, rfl⟩
  obtain ⟨hread, hwritten⟩ := commonField_there compile_pets (by simp [Schema.isRead_pets])
    (by decide) ht hr List.mem_cons_self rfl
  refine ⟨⟨t, ht, _, _, hr, List.mem_cons_self, by decide⟩, hdecode, encode_cat, ?_, ?_⟩
  · exact hread catBytes _ (.alone hdecode) 8 catFields (.refl _) (by decide)
  · exact hwritten _ catBytes encode_cat d catFields (.object hd (.here 8)) (by rw [hid]; decide)
      (by decide)

end PlanSet

end TypeLang
