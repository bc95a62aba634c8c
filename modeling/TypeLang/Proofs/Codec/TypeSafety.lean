import Mathlib
import TypeLang.Proofs.Codec.Canonical
import TypeLang.Proofs.Codec.Depth
import TypeLang.Proofs.Codec.Size
import TypeLang.Proofs.Plan.Types

/-!
# Where objects stand

Writer and reader ask the declaration of an object for its type; those who handle values go by the
constructors that the plan of a type lists (`Listed`). `Placed` says of every object in a value,
down through fields and vectors, that it is allowed where it stands: of the objects of every value
that is written, and of those of every value that is read, from whatever bytes. The two views of a
type part only where a constructor stands among the methods of a schema.
-/

namespace TypeLang

open Wire (Yields)
open Decoding (wire)

def Value.IsLeaf : Value → Prop
  | vector _ => False
  | object _ _ => False
  | _ => True

def FieldPlan.isValue (f : FieldPlan) : Bool :=
  match f.kind with
  | .fixed _ | .dynamic => true
  | .flagsWord _ | .trueBit => false

theorem FieldPlan.isValue_iff {f : FieldPlan} :
    f.isValue ↔ (∃ size, f.kind = .fixed size) ∨ f.kind = .dynamic := by
  unfold isValue
  cases f.kind <;> simp

def Fields.setAll (fields : Fields) (parts : List (FieldPlan × Value)) : Fields :=
  parts.foldl (fun done (f, v) => Fields.set done f.name v) fields

def DeclarationPlan.written (d : DeclarationPlan) (fields : Fields) : List (FieldPlan × Value) :=
  (d.layout.fields.filter (·.isValue)).filterMap fun f => (fields.get? f.name).map (f, ·)

inductive Pass where
  | writing
  | reading

/-- The values that a pass over an object goes through, with their fields. Reading sets them one
after the other, so that a name that is declared twice keeps the last value. -/
def Pass.Visits (d : DeclarationPlan) (fields : Fields) (parts : List (FieldPlan × Value)) :
    Pass → Prop
  | writing => parts = d.written fields
  | reading => (parts.map (·.1)).Sublist d.layout.fields ∧ fields = Fields.setAll [] parts

namespace PlanSet

/-- The identifier is dispatched to a declaration. -/
def Declared (p : PlanSet) (id : UInt32) : Prop :=
  ∃ schema name index, p.dispatch.get? id = some (.declaration schema name index)

/-- Where a named type is declared that the plan set has, the identifier is one of the type's. -/
def Listed (p : PlanSet) (slot : Slot) (id : UInt32) : Prop :=
  ∀ site name, slot = .typed site (.named name false) →
    ∀ t, p.type? (TypeKey.ofName site.schemaPrefix name) = some t → id ∈ t.representation.ids

/-- All objects that a pass finds in a value in some slot are allowed where they stand, unless they
are bare. -/
inductive Placed (p : PlanSet) (allowed : Slot → UInt32 → Prop) (pass : Pass) :
    Slot → Value → Prop
  | leaf {slot : Slot} {v : Value} (leaf : v.IsLeaf) : Placed p allowed pass slot v
  /-- Nothing is written for a `true`. -/
  | unwritten {site : Site} (v : Value) (writing : pass = .writing) :
      Placed p allowed pass (.typed site (.primitive .trueLiteral)) v
  | anyObject {site : Site} {v : Value} (generic : Placed p allowed pass (.generic site) v) :
      Placed p allowed pass (.typed site (.primitive .object)) v
  | var {site : Site} {name : String} {v : Value}
      (generic : Placed p allowed pass (.generic site) v) :
      Placed p allowed pass (.typed site (.var name)) v
  | flag {site : Site} {flag : Flag} {inner : TypeExpr} {v : Value}
      (typed : Placed p allowed pass (.typed site inner) v) :
      Placed p allowed pass (.typed site (.flag flag inner)) v
  | vector {site : Site} {inner : TypeExpr} {boxed : Bool} {items : List Value}
      (each : ∀ item ∈ items, Placed p allowed pass (.typed site inner) item) :
      Placed p allowed pass (.typed site (.vector inner boxed)) (.vector items)
  | genericVector {site : Site} {items : List Value}
      (each : ∀ item ∈ items, Placed p allowed pass (.generic site) item) :
      Placed p allowed pass (.generic site) (.vector items)
  | object {site : Site} {id : UInt32} {fields : Fields} {d : DeclarationPlan}
      (safe : allowed (.generic site) id) (dispatched : p.dispatched id = .ok d)
      (body : Placed p allowed pass (.body d) (.object id fields)) :
      Placed p allowed pass (.generic site) (.object id fields)
  | boxed {site : Site} {name : QualifiedName} {id : UInt32} {fields : Fields}
      {d : DeclarationPlan} (safe : allowed (.typed site (.named name false)) id)
      (dispatched : p.dispatched id = .ok d)
      (body : Placed p allowed pass (.body d) (.object id fields)) :
      Placed p allowed pass (.typed site (.named name false)) (.object id fields)
  | bare {site : Site} {name : QualifiedName} {id : UInt32} {fields : Fields}
      {d : DeclarationPlan} (declared : p.bare site.schemaPrefix name = .ok d)
      (body : Placed p allowed pass (.body d) (.object id fields)) :
      Placed p allowed pass (.typed site (.named name true)) (.object id fields)
  | body {d : DeclarationPlan} {id : UInt32} {fields : Fields} {parts : List (FieldPlan × Value)}
      (visits : pass.Visits d fields parts)
      (each : ∀ f v, (f, v) ∈ parts → Placed p allowed pass (.typed (d.site f) f.valueType) v) :
      Placed p allowed pass (.body d) (.object id fields)

/-- What the codec asks of an object before it writes or reads it makes sure that the object is
allowed where it stands. -/
structure Admits (p : PlanSet) (allowed : Slot → UInt32 → Prop) : Prop where
  dispatched : ∀ site id d, p.dispatched id = .ok d → allowed (.generic site) id
  typed : ∀ site name id d, p.typed site name id = .ok d →
    allowed (.typed site (.named name false)) id

variable {p : PlanSet} {schemas : List Schema} {capabilities : Capabilities}
  {allowed : Slot → UInt32 → Prop}

/-! ## References -/

theorem declared_of_dispatched {id : UInt32} {d : DeclarationPlan} (h : p.dispatched id = .ok d) :
    p.Declared id := by
  unfold dispatched at h
  split at h
  · rename_i schema name index hget
    exact ⟨schema, name, index, hget⟩
  · cases h

theorem admits_declared (p : PlanSet) : p.Admits fun _ id => p.Declared id where
  dispatched _ _ _ h := declared_of_dispatched h
  typed _ _ _ _ h := declared_of_dispatched (dispatched_of_typed h)

theorem typeKey_of_typed {site : Site} {name : QualifiedName} {id : UInt32} {d : DeclarationPlan}
    {t : TypePlan} (h : p.typed site name id = .ok d)
    (ht : p.type? (TypeKey.ofName site.schemaPrefix name) = some t) :
    d.typeKey = some (TypeKey.ofName site.schemaPrefix name) := by
  unfold typed at h
  obtain ⟨found, -, h⟩ := bind_eq_ok.mp h
  simp only [ht, Option.isNone_some, Bool.false_or] at h
  split at h
  · rename_i hkey
    cases h
    exact eq_of_beq hkey
  · cases h

/-- If all methods are methods, then what passes for a constructor of a type is listed by the plan
of the type. -/
theorem admits_listed (hp : compile schemas capabilities = .ok p)
    (hmethods : ∀ s ∈ schemas, ∀ decl ∈ s.methods, decl.category = .method) :
    p.Admits p.Listed where
  dispatched _ _ _ _ _ _ hslot := by cases hslot
  typed := by
    rintro site name id d h _ _ ⟨⟩ t ht
    have hdispatched := dispatched_of_typed h
    obtain ⟨rfl, -⟩ := id_of_dispatched hp hdispatched
    exact id_mem_ids hp hmethods (mem_of_dispatched hdispatched) (typeKey_of_typed h ht) ht

/-! ## Writing -/

theorem isLeaf_or_of_writePrimitive {site : Site} {kind : Primitive} {v : Value}
    {bytes : List UInt8} (h : writePrimitive site kind v = .ofBytes bytes) :
    v.IsLeaf ∨ kind = .trueLiteral := by
  unfold writePrimitive at h
  split at h
  case h_10 => exact .inr rfl
  case h_11 => exact (Output.failed_ne_ofBytes _ _ h).elim
  all_goals exact .inl trivial

structure WritesPlaced (p : PlanSet) (allowed : Slot → UInt32 → Prop) (v : Value) : Prop where
  generic : ∀ site bytes, p.writeGeneric site v = .ofBytes bytes →
    p.Placed allowed .writing (.generic site) v
  typed : ∀ site type bytes, p.writeTyped site type v = .ofBytes bytes →
    p.Placed allowed .writing (.typed site type) v

theorem placed_of_writeItems {site : Site} {inner : TypeExpr} {items : List Value}
    (hitems : ∀ item ∈ items, p.WritesPlaced allowed item) {bytes : List UInt8}
    (h : p.writeItems site inner items = .ofBytes bytes) :
    ∀ item ∈ items, p.Placed allowed .writing (.typed site inner) item := by
  induction items generalizing bytes with
  | nil => nofun
  | cons item items ih =>
      rw [writeItems] at h
      obtain ⟨front, back, hfront, hback, rfl⟩ := Output.append_eq_ofBytes.mp h
      rw [List.forall_mem_cons] at hitems ⊢
      exact ⟨hitems.1.typed _ _ _ hfront, ih hitems.2 hback⟩

theorem placed_of_writeGenericItems {site : Site} {items : List Value}
    (hitems : ∀ item ∈ items, p.WritesPlaced allowed item) {bytes : List UInt8}
    (h : p.writeGenericItems site items = .ofBytes bytes) :
    ∀ item ∈ items, p.Placed allowed .writing (.generic site) item := by
  induction items generalizing bytes with
  | nil => nofun
  | cons item items ih =>
      rw [List.forall_mem_cons] at hitems ⊢
      unfold writeGenericItems at h
      -- Numbers are written as they are, anything else as where it stands alone.
      split at h
      case h_1 heq => cases heq
      all_goals
        rename_i heq
        cases heq
        obtain ⟨front, back, hfront, hback, rfl⟩ := Output.append_eq_ofBytes.mp h
        refine ⟨?_, ih hitems.2 hback⟩
      case h_2 => exact .leaf trivial
      case h_3 => exact .leaf trivial
      case h_4 => exact hitems.1.generic _ _ hfront

theorem placed_of_writeFields {d : DeclarationPlan} {fields : Fields} {todo : List FieldPlan}
    (hvalues : ∀ name v, fields.get? name = some v → p.WritesPlaced allowed v) {bytes : List UInt8}
    (h : p.writeFields d fields todo = .ofBytes bytes) :
    ∀ f ∈ todo, f.isValue → ∀ v, fields.get? f.name = some v →
      p.Placed allowed .writing (.typed (d.site f) f.valueType) v := by
  induction todo generalizing bytes with
  | nil => nofun
  | cons f todo ih =>
      rw [writeFields_cons] at h
      obtain ⟨front, back, hfront, hback, rfl⟩ := Output.append_eq_ofBytes.mp h
      rw [List.forall_mem_cons]
      refine ⟨fun hvalue v hget => ?_, ih hback⟩
      rw [writeField_value (FieldPlan.isValue_iff.mp hvalue), hget] at hfront
      exact (hvalues _ _ hget).typed _ _ _ hfront

theorem placed_body_of_writeFields {d : DeclarationPlan} {id : UInt32} {fields : Fields}
    (hvalues : ∀ name v, fields.get? name = some v → p.WritesPlaced allowed v) {bytes : List UInt8}
    (h : p.writeFields d fields d.layout.fields = .ofBytes bytes) :
    p.Placed allowed .writing (.body d) (.object id fields) := by
  refine .body rfl fun f v hpart => ?_
  obtain ⟨g, hg, hpair⟩ := List.mem_filterMap.mp hpart
  obtain ⟨hmem, hvalue⟩ := List.mem_filter.mp hg
  obtain ⟨w, hget, hpair⟩ := Option.map_eq_some_iff.mp hpair
  cases hpair
  exact placed_of_writeFields hvalues h f hmem hvalue v hget

section

variable (hadmits : p.Admits allowed) {v : Value}
  (hparts : ∀ w, sizeOf w < sizeOf v → p.WritesPlaced allowed w)

include hadmits hparts

theorem placed_of_writeGeneric {site : Site} {bytes : List UInt8}
    (h : p.writeGeneric site v = .ofBytes bytes) : p.Placed allowed .writing (.generic site) v := by
  unfold writeGeneric at h
  split at h
  case h_1 id fields =>
      split at h
      · rename_i d hd
        obtain ⟨front, back, -, hback, rfl⟩ := Output.append_eq_ofBytes.mp h
        refine .object (hadmits.dispatched _ _ _ hd) hd (placed_body_of_writeFields ?_ hback)
        exact fun _ w hw => hparts w (sizeOf_lt_of_get?_object hw)
      · exact (Output.failed_ne_ofBytes _ _ h).elim
  case h_2 => exact .leaf trivial
  case h_3 => exact .leaf trivial
  case h_4 items =>
      obtain ⟨front, back, -, hback, rfl⟩ := Output.append_eq_ofBytes.mp h
      refine .genericVector (placed_of_writeGenericItems ?_ hback)
      exact fun item hitem => hparts item (sizeOf_lt_of_mem_vector hitem)
  case h_5 => exact (Output.failed_ne_ofBytes _ _ h).elim

theorem placed_of_writeTyped {site : Site} {type : TypeExpr} {bytes : List UInt8}
    (h : p.writeTyped site type v = .ofBytes bytes) :
    p.Placed allowed .writing (.typed site type) v := by
  induction type with
  | primitive kind =>
      by_cases hobject : kind = .object
      · subst hobject
        rw [writeTyped] at h
        exact .anyObject (placed_of_writeGeneric hadmits hparts h)
      · rw [writeTyped_primitive hobject] at h
        obtain hleaf | rfl := isLeaf_or_of_writePrimitive h
        · exact .leaf hleaf
        · exact .unwritten v rfl
  | flag flag inner ih =>
      rw [writeTyped] at h
      exact .flag (ih h)
  | var name =>
      rw [writeTyped] at h
      split at h
      · exact .var (placed_of_writeGeneric hadmits hparts h)
      · exact (Output.failed_ne_ofBytes _ _ h).elim
  | vector inner boxed ih =>
      obtain ⟨items, rfl⟩ := eq_vector_of_writeTyped h
      rw [writeTyped] at h
      obtain ⟨front, back, -, hback, rfl⟩ := Output.append_eq_ofBytes.mp h
      refine .vector (placed_of_writeItems ?_ hback)
      exact fun item hitem => hparts item (sizeOf_lt_of_mem_vector hitem)
  | named name bare =>
      obtain ⟨id, fields, rfl⟩ := eq_object_of_writeTyped h
      have hvalues (name : String) (w : Value) (hw : Fields.get? fields name = some w) :
          p.WritesPlaced allowed w := hparts w (sizeOf_lt_of_get?_object hw)
      rw [writeTyped.eq_def] at h
      cases bare with
      | true =>
          simp only at h
          split at h
          · rename_i d hd
            exact .bare hd (placed_body_of_writeFields hvalues h)
          · exact (Output.failed_ne_ofBytes _ _ h).elim
      | false =>
          simp only at h
          split at h
          · rename_i d hd
            obtain ⟨front, back, -, hback, rfl⟩ := Output.append_eq_ofBytes.mp h
            exact .boxed (hadmits.typed _ _ _ _ hd) (dispatched_of_typed hd)
              (placed_body_of_writeFields hvalues hback)
          · exact (Output.failed_ne_ofBytes _ _ h).elim

end

theorem writesPlaced (hadmits : p.Admits allowed) (v : Value) : p.WritesPlaced allowed v := by
  have hparts : ∀ w, sizeOf w < sizeOf v → p.WritesPlaced allowed w :=
    fun w _ => writesPlaced hadmits w
  exact ⟨fun _ _ => placed_of_writeGeneric hadmits hparts,
    fun _ _ _ => placed_of_writeTyped hadmits hparts⟩
termination_by sizeOf v

/-! ## Reading -/

theorem readPrimitive_yields_leaf (generic : Decoding Value) {kind : Primitive}
    (hobject : kind ≠ .object) : Yields (readPrimitive generic kind) fun v _ => v.IsLeaf := by
  cases kind with
  | object => exact absurd rfl hobject
  | trueLiteral => exact .pure trivial
  | int => exact (Decoding.wire_yields Wire.Read.int32_yields).map fun _ _ _ => trivial
  | long => exact (Decoding.wire_yields Wire.Read.int64_yields).map fun _ _ _ => trivial
  | double => exact (Decoding.wire_yields Wire.Read.uint64_yields).map fun _ _ _ => trivial
  | bool => exact (Decoding.wire_yields Wire.Read.bool_yields).map fun _ _ _ => trivial
  | bytes => exact (Decoding.wire_yields Wire.Read.payload_yields).map fun _ _ _ => trivial
  | string => exact (Decoding.wire_yields Wire.Read.string_yields).map fun _ _ _ => trivial
  | int128 => exact (Decoding.wire_yields (Wire.Read.raw_yields 16)).map fun _ _ _ => trivial
  | int256 => exact (Decoding.wire_yields (Wire.Read.raw_yields 32)).map fun _ _ _ => trivial
  | json => exact (Decoding.wire_yields JsonValue.read_yields).map fun _ _ _ => trivial
  | flags => exact (Decoding.wire_yields Wire.Read.int32_yields).map fun _ _ _ => trivial

/-- Some of the fields `todo` have been set in order, each to a value that is good for it. -/
def Filled (good : FieldPlan → Value → Prop) (todo : List FieldPlan) (done all : Fields) : Prop :=
  ∃ parts : List (FieldPlan × Value), (parts.map (·.1)).Sublist todo ∧
    all = done.setAll parts ∧ ∀ f v, (f, v) ∈ parts → good f v

namespace Filled

variable {good : FieldPlan → Value → Prop} {todo : List FieldPlan} {done all : Fields}
  {f : FieldPlan} {v : Value}

theorem skip (h : Filled good todo done all) : Filled good (f :: todo) done all := by
  obtain ⟨parts, hparts, hall, hgood⟩ := h
  exact ⟨parts, hparts.cons f, hall, hgood⟩

theorem set (hv : good f v) (h : Filled good todo (Fields.set done f.name v) all) :
    Filled good (f :: todo) done all := by
  obtain ⟨parts, hparts, hall, hgood⟩ := h
  refine ⟨(f, v) :: parts, hparts.cons_cons f, hall, fun g w hmem => ?_⟩
  rcases List.mem_cons.mp hmem with heq | hmem
  · cases heq
    exact hv
  · exact hgood g w hmem

end Filled

theorem readFields_yields_filled {read : FieldPlan → Decoding Value}
    {good : FieldPlan → Value → Prop} (hbit : ∀ f b, good f (.bool b))
    (hread : ∀ f, Yields (read f) fun v _ => good f v) (words : List (String × UInt32))
    (done : Fields) (todo : List FieldPlan) :
    Yields (readFields read words done todo) fun all _ => Filled good todo done all := by
  induction todo generalizing words done with
  | nil => exact .pure ⟨[], .slnil, rfl, nofun⟩
  | cons f todo ih =>
      have hskip (words : List (String × UInt32)) :
          Yields (readFields read words done todo) fun all _ => Filled good (f :: todo) done all :=
        (ih words done).mono fun _ _ => .skip
      have hset (v : Value) (hv : good f v) :
          Yields (readFields read words (Fields.set done f.name v) todo) fun all _ =>
            Filled good (f :: todo) done all :=
        (ih words _).mono fun _ _ => .set hv
      cases hkind : f.kind with
      | flagsWord unused =>
          rw [readFields_word hkind]
          exact (Decoding.wire_yields Wire.Read.uint32_yields).bind fun _ _ _ => hskip _
      | trueBit =>
          rw [readFields_bit hkind]
          exact hset _ (hbit f _)
      | _ =>
          rw [readFields_value (by simp [hkind])]
          refine .ite (fun _ => ?_) fun _ => hskip words
          exact (hread f).bind fun v _ hv => hset v hv

section

variable {generic : Decoding Value} {body : DeclarationPlan → Decoding Value}
  (hgeneric : ∀ site, Yields generic fun v _ => p.Placed allowed .reading (.generic site) v)
  (hbody : ∀ d, Yields (body d) fun v _ =>
    ∃ fields, v = .object d.id fields ∧ p.Placed allowed .reading (.body d) v)
  (hp : compile schemas capabilities = .ok p) (hadmits : p.Admits allowed)

include hgeneric hbody hp hadmits

theorem readTyped_yields_placed (site : Site) (type : TypeExpr) :
    Yields (readTyped p body generic site type) fun v _ =>
      p.Placed allowed .reading (.typed site type) v := by
  induction type with
  | primitive kind =>
      by_cases hobject : kind = .object
      · subst hobject
        exact (hgeneric site).mono fun _ _ => .anyObject
      · exact (readPrimitive_yields_leaf generic hobject).mono fun _ _ => .leaf
  | flag flag inner ih => exact Yields.mono ih fun _ _ => .flag
  | var name => exact (hgeneric site).mono fun _ _ => .var
  | vector inner boxed ih =>
      have hmark : Yields (if boxed then wire (Wire.Read.id Wire.vectorId) else pure ())
          fun _ _ => True :=
        .ite (fun _ => (Decoding.wire_yields (Wire.Read.id_yields _)).mono fun _ _ _ => trivial)
          fun _ => .pure trivial
      rw [readTyped_vector]
      refine hmark.bind fun _ _ _ => ?_
      refine (Decoding.wire_yields Wire.Read.count_yields).bind fun n _ _ => ?_
      apply (Wire.Read.items_yields ih n).bind_pure
      rintro items _ ⟨-, sizes, hitems, -⟩
      refine .vector fun item hmem => ?_
      obtain ⟨_, -, hitem⟩ := exists_mem_of_forall₂ hitems.flip hmem
      exact hitem
  | named name bare =>
      cases bare with
      | true =>
          apply (Decoding.ofExcept_yields _).bind
          rintro d _ ⟨hd, -⟩
          apply (hbody d).mono
          rintro _ _ ⟨fields, rfl, h⟩
          exact .bare hd h
      | false =>
          refine (Decoding.wire_yields Wire.Read.uint32_yields).bind fun id _ _ => ?_
          apply (Decoding.ofExcept_yields _).bind
          rintro d _ ⟨hd, -⟩
          have hdispatched := dispatched_of_typed hd
          -- What is given back has the identifier of the declaration, so they have to be the same.
          obtain ⟨rfl, -⟩ := id_of_dispatched hp hdispatched
          apply (hbody d).mono
          rintro _ _ ⟨fields, rfl, h⟩
          exact .boxed (hadmits.typed _ _ _ _ hd) hdispatched h

end

structure DepthPlaced (p : PlanSet) (allowed : Slot → UInt32 → Prop) (depth : Nat) : Prop where
  generic : ∀ site, Yields (readGeneric p depth) fun v _ =>
    p.Placed allowed .reading (.generic site) v
  body : ∀ d, Yields (readBody p depth d) fun v _ =>
    ∃ fields, v = .object d.id fields ∧ p.Placed allowed .reading (.body d) v

theorem genericItems_yields_placed {site : Site} {read : Decoding Value} (n : Nat)
    (hread : Yields read fun v _ => p.Placed allowed .reading (.generic site) v) :
    Yields (do return .vector (← Wire.Read.items read n)) fun v _ =>
      p.Placed allowed .reading (.generic site) v := by
  apply (Wire.Read.items_yields hread n).bind_pure
  rintro items _ ⟨-, sizes, hitems, -⟩
  refine .genericVector fun item hmem => ?_
  obtain ⟨_, -, hitem⟩ := exists_mem_of_forall₂ hitems.flip hmem
  exact hitem

section

variable (hp : compile schemas capabilities = .ok p) (hadmits : p.Admits allowed) {depth : Nat}
  (h : p.DepthPlaced allowed depth)

include hp hadmits h

theorem readGeneric_succ_yields_placed (site : Site) :
    Yields (readGeneric p (depth + 1)) fun v _ => p.Placed allowed .reading (.generic site) v := by
  have hlong : Yields (Value.long <$> wire Wire.Read.int64) fun v _ =>
      p.Placed allowed .reading (.generic site) v :=
    (Decoding.wire_yields Wire.Read.int64_yields).map fun _ _ _ => .leaf trivial
  have hint : Yields (Value.int <$> wire Wire.Read.int32) fun v _ =>
      p.Placed allowed .reading (.generic site) v :=
    (Decoding.wire_yields Wire.Read.int32_yields).map fun _ _ _ => .leaf trivial
  rw [readGeneric]
  refine (Decoding.wire_yields Wire.Read.peekUInt32_yields).bind fun _ _ _ => ?_
  refine .ite (fun _ => ?_) fun _ => .ite (fun _ => ?_) fun _ => .ite (fun _ => ?_) fun _ => ?_
  · exact (Decoding.wire_yields Wire.Read.bool_yields).bind_pure fun _ _ _ => .leaf trivial
  · refine (Decoding.wire_yields (Wire.Read.skip_yields 4)).bind fun _ _ _ => ?_
    refine (Decoding.wire_yields Wire.Read.count_yields).bind fun n _ _ => ?_
    refine Decoding.get_yields.bind fun _ _ _ => ?_
    refine .ite (fun _ => genericItems_yields_placed n hlong) fun _ => ?_
    refine .ite (fun _ => genericItems_yields_placed n hint) fun _ => ?_
    exact genericItems_yields_placed n (h.generic site)
  · exact (Decoding.wire_yields JsonValue.read_yields).bind_pure fun _ _ _ => .leaf trivial
  · refine (Decoding.wire_yields Wire.Read.uint32_yields).bind fun id _ _ => ?_
    apply (Decoding.ofExcept_yields _).bind
    rintro d _ ⟨hd, -⟩
    obtain ⟨rfl, -⟩ := id_of_dispatched hp hd
    apply (h.body d).mono
    rintro _ _ ⟨fields, rfl, hbody⟩
    exact .object (hadmits.dispatched _ _ _ hd) hd hbody

theorem readBody_succ_yields_placed (d : DeclarationPlan) :
    Yields (readBody p (depth + 1) d) fun v _ =>
      ∃ fields, v = .object d.id fields ∧ p.Placed allowed .reading (.body d) v := by
  have hfilled := readFields_yields_filled (fun _ _ => .leaf trivial)
    (fun f => readTyped_yields_placed h.generic h.body hp hadmits (d.site f) f.valueType) [] []
    d.layout.fields
  rw [readBody_succ]
  apply hfilled.bind_pure
  rintro all _ ⟨parts, hparts, hall, hgood⟩
  exact ⟨all, rfl, .body ⟨hparts, hall⟩ hgood⟩

end

theorem depthPlaced (hp : compile schemas capabilities = .ok p) (hadmits : p.Admits allowed)
    (depth : Nat) : p.DepthPlaced allowed depth := by
  induction depth with
  | zero =>
      constructor
      · intro site
        rw [readGeneric]
        exact .throw _
      · intro d
        rw [readBody]
        exact .throw _
  | succ depth ih =>
      exact ⟨readGeneric_succ_yields_placed hp hadmits ih,
        readBody_succ_yields_placed hp hadmits ih⟩

theorem placed_of_run {read : Decoding Value} {slot : Slot}
    (hread : Yields read fun v _ => p.Placed allowed .reading slot v) {bytes : List UInt8}
    {v : Value} (h : read.run bytes = .ok v) : p.Placed allowed .reading slot v := by
  obtain ⟨_, -, hplaced⟩ := Decoding.exists_of_run hread h
  exact hplaced

/-! ## Type safety -/

/-- All objects that are written or read are allowed where they stand, unless they are bare. -/
structure Guards (p : PlanSet) (allowed : Slot → UInt32 → Prop) : Prop where
  encode : ∀ v bytes, p.encode v = .ok bytes → p.Placed allowed .writing (.generic .top) v
  decode : ∀ bytes v, p.decode bytes = .ok v → p.Placed allowed .reading (.generic .top) v
  decodeResult : ∀ id bytes v, p.decodeResult id bytes = .ok v → ∃ d, p.method id = .ok d ∧
    p.Placed allowed .reading (.typed ⟨d.schemaPrefix, "result"⟩ d.result) v

theorem guards_of_admits (hp : compile schemas capabilities = .ok p) (hadmits : p.Admits allowed) :
    p.Guards allowed where
  encode v bytes h := (writesPlaced hadmits v).generic _ _ (Output.toExcept_eq_ok.mp h)
  decode bytes v h := by
    refine placed_of_run (fun c w c' hread => ?_) h
    exact (depthPlaced hp hadmits (p.maxDepth c.remaining)).generic .top c w c' hread
  decodeResult id bytes v h := by
    obtain ⟨d, hd, hrun⟩ := bind_eq_ok.mp h
    have hdepth := depthPlaced hp hadmits (p.maxDepth bytes.length)
    have hread := readTyped_yields_placed hdepth.generic hdepth.body hp hadmits
    exact ⟨d, hd, placed_of_run (hread _ _) hrun⟩

/-- All objects that are written or read, and are not bare, are of declarations that are dispatched
to. Where a named type of the plan set is declared, they are of its constructors, provided that no
constructor stands among the methods of a schema. -/
theorem codec_typeSafe (hp : compile schemas capabilities = .ok p) :
    (p.Guards fun _ id => p.Declared id) ∧
      ((∀ s ∈ schemas, ∀ decl ∈ s.methods, decl.category = .method) → p.Guards p.Listed) :=
  ⟨guards_of_admits hp (admits_declared p),
    fun hmethods => guards_of_admits hp (admits_listed hp hmethods)⟩

/-- Blue passes for a color, although the type of colors does not list it. -/
theorem not_guards_listed_strayBlue :
    compile [.strayBlue] {} = .ok .strayBlue ∧
      strayBlue.decodeResult 6 [3, 0, 0, 0] = .ok (.object 3 []) ∧
      ¬strayBlue.Guards strayBlue.Listed := by
  have hdecoded : strayBlue.decodeResult 6 [3, 0, 0, 0] = .ok (.object 3 []) := by
    rfl
  refine ⟨compile_strayBlue, hdecoded, fun h => ?_⟩
  obtain ⟨d, hd, hplaced⟩ := h.decodeResult 6 [3, 0, 0, 0] (.object 3 []) hdecoded
  obtain rfl : strayBlue.declarations.getD 2 default = d := Except.ok.inj hd
  cases hplaced with
  | leaf leaf => exact leaf
  | boxed safe =>
      have hlisted := safe ⟨"", "result"⟩ ⟨[], "Color"⟩ rfl (strayBlue.types.getD 0 default) rfl
      revert hlisted
      decide

end PlanSet

/-! ## Cars and their colors -/

def Schema.cars : Schema where
  config := {}
  layer := none
  constructors := [
    ⟨.constructor, 5, ⟨[], "car"⟩,
      [⟨"flags", .primitive .flags⟩,
        ⟨"paint", .flag .lowest (.vector (.named ⟨[], "Color"⟩ false) true)⟩],
      .named ⟨[], "Car"⟩ false⟩]
  methods := [
    ⟨.method, 6, ⟨[], "repaint"⟩, [⟨"car", .named ⟨[], "Car"⟩ false⟩],
      .vector (.named ⟨[], "Color"⟩ false) false⟩]

def Schema.garage : List Schema :=
  [color "colorRed" 4, cars, color "colorBlue" 3]

def PlanSet.garage : PlanSet :=
  (compile Schema.garage {}).toOption.getD default

theorem compile_garage : compile Schema.garage {} = .ok .garage := by
  rfl

namespace PlanSet

def paint : Value := .vector [.object 4 [], .object 3 []]

def car : Value := .object 5 [("paint", paint)]

def carBytes : List UInt8 :=
  [5, 0, 0, 0, 1, 0, 0, 0, 0x15, 0xc4, 0xb5, 0x1c, 2, 0, 0, 0, 4, 0, 0, 0, 3, 0, 0, 0]

private theorem writeTyped_color {site : Site} (hsite : site.schemaPrefix = "") {id : UInt32}
    (hid : id = 4 ∨ id = 3) :
    garage.writeTyped site (.named ⟨[], "Color"⟩ false) (.object id []) =
      .ofBytes (Wire.uint32 id) := by
  obtain ⟨_, _⟩ := site
  cases hsite
  rw [writeTyped]
  rcases hid with rfl | rfl
  · exact congrArg (Output.ofBytes (Wire.uint32 4) ++ ·) (writeFields_nil ..)
  · exact congrArg (Output.ofBytes (Wire.uint32 3) ++ ·) (writeFields_nil ..)

private theorem writeTyped_paint {site : Site} (hsite : site.schemaPrefix = "") :
    garage.writeTyped site (.vector (.named ⟨[], "Color"⟩ false) true) paint =
      .ofBytes (Wire.vectorHeader 2 ++ (Wire.uint32 4 ++ Wire.uint32 3)) := by
  rw [paint, writeTyped, writeItems, writeItems, writeItems,
    writeTyped_color hsite (.inl rfl), writeTyped_color hsite (.inr rfl)]
  rfl

private theorem encode_car : garage.encode car = .ok carBytes := by
  have hcar : garage.dispatched 5 = .ok (garage.declarations.getD 1 default) := by
    rfl
  have hpaint := @writeTyped_paint ⟨"", "paint"⟩ rfl
  rw [encode, write, car, writeGeneric, hcar]
  show (Output.ofBytes (Wire.uint32 5) ++ garage.writeFields _ _ [_, _]).toExcept = _
  rw [writeFields_cons, writeFields_cons, writeFields_nil, writeField_word rfl,
    writeField_value (.inr rfl)]
  exact congrArg (fun paint => (.ofBytes (Wire.uint32 5) ++
    (.ofBytes (Wire.uint32 1) ++ (paint ++ .empty)) : Output).toExcept) hpaint

/-- The paint of a car and what a method gives back are colors, written and read. -/
theorem codec_typeSafe_garage :
    (garage.Placed (fun _ id => garage.Declared id) .writing (.generic .top) car ∧
      garage.Placed garage.Listed .writing (.generic .top) car) ∧
      (garage.decode carBytes = .ok car ∧
        garage.Placed garage.Listed .reading (.generic .top) car) ∧
      garage.decodeResult 6 (carBytes.drop 12) = .ok paint ∧ ∃ d, garage.method 6 = .ok d ∧
        garage.Placed garage.Listed .reading (.typed ⟨d.schemaPrefix, "result"⟩ d.result)
          paint := by
  obtain ⟨hdeclared, hlisted⟩ := codec_typeSafe compile_garage
  replace hlisted := hlisted (by decide)
  have hdecode : garage.decode carBytes = .ok car := by
    rfl
  have hdecodeResult : garage.decodeResult 6 (carBytes.drop 12) = .ok paint := by
    rfl
  exact ⟨⟨hdeclared.encode _ _ encode_car, hlisted.encode _ _ encode_car⟩,
    ⟨hdecode, hlisted.decode _ _ hdecode⟩, hdecodeResult,
    hlisted.decodeResult _ _ _ hdecodeResult⟩

end PlanSet

end TypeLang
