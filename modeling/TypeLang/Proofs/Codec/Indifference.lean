import Mathlib
import TypeLang.Proofs.Codec.Size

/-!
# What writing does not depend on

Writer and size formulas look the fields of an object up by the names that its declaration has. So
neither the order in which the fields were set nor what is stored under other names makes a
difference, not to the bytes, not to the size and not to the error. The name of a flags word is such
another name: the word is put together from the fields that it tells about.

`Alike` relates values between which there is no other difference, down through fields and vectors.
It is indexed by the type that is declared where the values stand, with `Object` for values that
tell their own type, because the same object may be written with one declaration here and with
another one there. `codec_eq_of_alike` puts this together.
-/

namespace TypeLang

def TypeExpr.item? : TypeExpr → Option TypeExpr
  | primitive .object => some (primitive .object)
  | var _ => some (primitive .object)
  | vector inner _ => some inner
  | flag _ inner => inner.item?
  | _ => none

namespace DeclarationPlan

/-- The fields that an object holds a value for: all but the flags words. A gated `#` is one of them,
since an entry under its name sets the bit that gates it. -/
def stored (d : DeclarationPlan) : List FieldPlan :=
  d.layout.fields.filter (!·.type.isFlagsWord)

theorem mem_stored {d : DeclarationPlan} {f : FieldPlan} :
    f ∈ d.stored ↔ f ∈ d.layout.fields ∧ f.type ≠ .primitive .flags := by
  simp [stored, TypeExpr.isFlagsWord]

variable {d : DeclarationPlan} {f : FieldPlan}

theorem mem_stored_of_valueType (hf : f ∈ d.layout.fields) (h : f.valueType ≠ .primitive .flags) :
    f ∈ d.stored := by
  refine mem_stored.mpr ⟨hf, fun htype => h ?_⟩
  rw [FieldPlan.valueType, htype]
  rfl

theorem mem_stored_of_flag? (hf : f ∈ d.layout.fields) {flag : Flag} (h : f.flag? = some flag) :
    f ∈ d.stored := by
  refine mem_stored.mpr ⟨hf, fun htype => ?_⟩
  rw [FieldPlan.flag?, htype] at h
  cases h

theorem exists_stored_of_mem_probes (hplanned : d.layout.IsPlanned) {probe : Probe}
    (h : probe ∈ d.layout.size.probes) :
    ∃ f ∈ d.stored, d.layout.fields[probe.index]? = some f := by
  obtain ⟨decl, hdecl⟩ := hplanned
  obtain ⟨-, -, hfields, -, hprobes⟩ := Layout.ofDeclaration_eq_ok hdecl
  rw [hprobes] at h
  obtain ⟨q, hq, hvaries, -⟩ := Layout.mem_probes_iff.mp h
  let f := Layout.fieldPlan (Layout.presenceOf decl.params) q
  have hindex : d.layout.fields[probe.index]? = some f := by
    rw [hfields, List.getElem?_map, hq, Option.map_some]
  exact ⟨f, mem_stored_of_valueType (List.mem_of_getElem? hindex) hvaries.word, hindex⟩

end DeclarationPlan

namespace PlanSet

/-- The declaration that an object with this identifier is written with where the type is
declared. -/
def declared (p : PlanSet) (site : Site) : TypeExpr → UInt32 → Option DeclarationPlan
  | .primitive .object, id => (p.dispatched id).toOption
  | .var _, id => (p.dispatched id).toOption
  | .named name true, _ => (p.bare site.schemaPrefix name).toOption
  | .named name false, id => (p.typed site name id).toOption
  | .flag _ inner, id => declared p site inner id
  | _, _ => none

/-- The values differ only in the order of fields and in what is stored under names that are none of
a stored field, for the declaration that the object is written with. An object that is not written
may have any fields, and a vector that is not written any items. -/
inductive Alike (p : PlanSet) : Site → TypeExpr → Value → Value → Prop
  | refl {site : Site} {type : TypeExpr} (v : Value) : Alike p site type v v
  | vector {site : Site} {type : TypeExpr} {items others : List Value}
      (length : items.length = others.length)
      (each : ∀ inner, type.item? = some inner →
        ∀ i (h : i < items.length) (h' : i < others.length), Alike p site inner items[i] others[i]) :
      Alike p site type (.vector items) (.vector others)
  | object {site : Site} {type : TypeExpr} {id : UInt32} {fields others : Fields}
      (presence : ∀ d, p.declared site type id = some d → ∀ f ∈ d.stored,
        fields.contains f.name = others.contains f.name)
      (values : ∀ d, p.declared site type id = some d → ∀ f ∈ d.stored, ∀ v w,
        fields.get? f.name = some v → others.get? f.name = some w →
        Alike p (d.site f) f.valueType v w) :
      Alike p site type (.object id fields) (.object id others)

variable {p : PlanSet}

namespace Alike

variable {site : Site} {type : TypeExpr} {v w x : Value}

theorem symm (h : p.Alike site type v w) : p.Alike site type w v := by
  induction h with
  | refl v => exact .refl v
  | vector length each ih =>
      exact .vector length.symm fun inner hinner i h h' => ih inner hinner i h' h
  | object presence values ih =>
      exact .object (fun d hd f hf => (presence d hd f hf).symm)
        fun d hd f hf v w hv hw => ih d hd f hf w v hw hv

theorem trans (h : p.Alike site type v w) (h' : p.Alike site type w x) : p.Alike site type v x := by
  induction h generalizing x with
  | refl => exact h'
  | vector length each ih =>
      cases h' with
      | refl => exact .vector length each
      | vector length' each' =>
          refine .vector (length.trans length') fun inner hinner i hi hi' => ?_
          exact ih inner hinner i hi (length ▸ hi) (each' inner hinner i (length ▸ hi) hi')
  | @object _ _ _ _ others presence values ih =>
      cases h' with
      | refl => exact .object presence values
      | object presence' values' =>
          refine .object (fun d hd f hf => (presence d hd f hf).trans (presence' d hd f hf)) ?_
          intro d hd f hf v x hv hx
          obtain ⟨w, hw⟩ : ∃ w, others.get? f.name = some w := by
            rw [← Option.isSome_iff_exists, ← Fields.contains, ← presence d hd f hf,
              Fields.contains, hv]
            rfl
          exact ih d hd f hf v w hv hw (values' d hd f hf w x hw hx)

end Alike

theorem alike_equivalence (p : PlanSet) (site : Site) (type : TypeExpr) :
    Equivalence (p.Alike site type) :=
  ⟨.refl, .symm, .trans⟩

/-- Objects without repeated names are alike if what is left of them is the same up to order, when
everything is dropped that is stored under other names than those of stored fields. -/
theorem Alike.of_perm {site : Site} {type : TypeExpr} {id : UInt32} {fields others : Fields}
    (hfields : (fields.map (·.1)).Nodup) (hothers : (others.map (·.1)).Nodup)
    (h : ∀ d, p.declared site type id = some d →
      (fields.filter (·.1 ∈ d.stored.map (·.name))).Perm
        (others.filter (·.1 ∈ d.stored.map (·.name)))) :
    p.Alike site type (.object id fields) (.object id others) := by
  have hget (d : DeclarationPlan) (hd : p.declared site type id = some d) (f : FieldPlan)
      (hf : f ∈ d.stored) : fields.get? f.name = others.get? f.name := by
    have hname : f.name ∈ d.stored.map (·.name) := List.mem_map_of_mem hf
    ext v
    have hmem := (h d hd).mem_iff (a := (f.name, v))
    simp only [List.mem_filter, hname, decide_true, and_true] at hmem
    rw [Fields.get?, Fields.get?, Association.lookup_eq_some_iff_mem hfields,
      Association.lookup_eq_some_iff_mem hothers, hmem]
  refine .object (fun d hd f hf => ?_) fun d hd f hf v w hv hw => ?_
  · rw [Fields.contains, Fields.contains, hget d hd f hf]
  · rw [hget d hd f hf, hw] at hv
    cases hv
    exact .refl v

/-! ## Fields -/

structure SameCodec (p : PlanSet) (site : Site) (type : TypeExpr) (v w : Value) : Prop where
  write : p.writeTyped site type v = p.writeTyped site type w
  size : p.typedSize site type v = p.typedSize site type w

structure SameFields (p : PlanSet) (d : DeclarationPlan) (fields others : Fields) : Prop where
  presence : ∀ f ∈ d.stored, fields.contains f.name = others.contains f.name
  alike : ∀ f ∈ d.stored, ∀ v w, fields.get? f.name = some v → others.get? f.name = some w →
    p.Alike (d.site f) f.valueType v w
  codec : ∀ f ∈ d.stored, ∀ v w, fields.get? f.name = some v → others.get? f.name = some w →
    p.SameCodec (d.site f) f.valueType v w

namespace SameFields

variable {d : DeclarationPlan} {fields others : Fields} {f : FieldPlan}

theorem get?_cases (h : p.SameFields d fields others) (hf : f ∈ d.stored) :
    fields.get? f.name = none ∧ others.get? f.name = none ∨
      ∃ v w, fields.get? f.name = some v ∧ others.get? f.name = some w ∧
        p.Alike (d.site f) f.valueType v w ∧ p.SameCodec (d.site f) f.valueType v w := by
  have hpresence := h.presence f hf
  rw [Fields.contains, Fields.contains] at hpresence
  cases hv : fields.get? f.name with
  | none =>
      rw [hv] at hpresence
      exact .inl ⟨rfl, Option.isNone_iff_eq_none.mp (by simpa using hpresence.symm)⟩
  | some v =>
      rw [hv] at hpresence
      obtain ⟨w, hw⟩ := Option.isSome_iff_exists.mp hpresence.symm
      exact .inr ⟨v, w, rfl, hw, h.alike f hf v w hv hw, h.codec f hf v w hv hw⟩

theorem isPresent_eq (h : p.SameFields d fields others) (hf : f ∈ d.stored) :
    d.layout.isPresent fields f.name = d.layout.isPresent others f.name := by
  unfold Layout.isPresent
  rw [h.presence f hf]
  obtain ⟨hv, hw⟩ | ⟨v, w, hv, hw, halike, -⟩ := h.get?_cases hf
  · rw [hv, hw]
  · rw [hv, hw]
    -- A truth value is alike to no other value.
    cases halike <;> rfl

variable (hplanned : d.layout.IsPlanned)

include hplanned

theorem flagsWord_eq (h : p.SameFields d fields others) (word : String) :
    d.layout.flagsWord fields word = d.layout.flagsWord others word := by
  unfold Layout.flagsWord
  congr 1
  refine List.filter_congr fun b hb => ?_
  obtain ⟨g, ⟨front, back, hsplit, hflag, -⟩, hname⟩ := (Layout.mem_bits_iff hplanned).mp hb
  rw [← hname]
  exact h.isPresent_eq (DeclarationPlan.mem_stored_of_flag? (by simp [hsplit]) hflag)

theorem writeField_eq (h : p.SameFields d fields others) (hf : f ∈ d.layout.fields) :
    p.writeField d fields f = p.writeField d others f := by
  cases hplanned.treatment hf with
  | word _ kind => rw [writeField_word kind, writeField_word kind, h.flagsWord_eq hplanned]
  | bit kind => rw [writeField_bit kind, writeField_bit kind]
  | value kind word =>
      rw [writeField_value kind, writeField_value kind]
      obtain ⟨hv, hw⟩ | ⟨v, w, hv, hw, -, hcodec⟩ :=
        h.get?_cases (DeclarationPlan.mem_stored_of_valueType hf word)
      · rw [hv, hw]
      · rw [hv, hw]
        exact hcodec.write

theorem writeFields_eq (h : p.SameFields d fields others) :
    p.writeFields d fields d.layout.fields = p.writeFields d others d.layout.fields := by
  have htodo {todo : List FieldPlan} (hsub : todo ⊆ d.layout.fields) :
      p.writeFields d fields todo = p.writeFields d others todo := by
    induction todo with
    | nil => rw [writeFields_nil, writeFields_nil]
    | cons f rest ih =>
        obtain ⟨hf, hrest⟩ := List.cons_subset.mp hsub
        rw [writeFields_cons, writeFields_cons, h.writeField_eq hplanned hf, ih hrest]
  exact htodo (List.Subset.refl _)

theorem probeSize_eq (h : p.SameFields d fields others) {probe : Probe}
    (hprobe : probe ∈ d.layout.size.probes) :
    p.probeSize d fields probe = p.probeSize d others probe := by
  obtain ⟨f, hf, hindex⟩ := DeclarationPlan.exists_stored_of_mem_probes hplanned hprobe
  rw [probeSize_of_index hindex, probeSize_of_index hindex]
  obtain ⟨hv, hw⟩ | ⟨v, w, hv, hw, -, hcodec⟩ := h.get?_cases hf
  · rw [hv, hw]
  · simp only [hv, hw, hcodec.size]

theorem objectSize_eq (h : p.SameFields d fields others) :
    p.objectSize d fields = p.objectSize d others := by
  have hprobes {probes : List Probe} (hsub : probes ⊆ d.layout.size.probes) :
      p.probesSize d fields probes = p.probesSize d others probes := by
    induction probes with
    | nil => rw [probesSize, probesSize]
    | cons probe rest ih =>
        obtain ⟨hprobe, hrest⟩ := List.cons_subset.mp hsub
        rw [probesSize, probesSize, h.probeSize_eq hplanned hprobe, ih hrest]
  rw [objectSize, objectSize, hprobes (List.Subset.refl _)]

end SameFields

/-! ## Vectors and objects -/

structure SameBody (p : PlanSet) (d : DeclarationPlan) (fields others : Fields) : Prop where
  write : p.writeFields d fields d.layout.fields = p.writeFields d others d.layout.fields
  size : p.objectSize d fields = p.objectSize d others

namespace SameCodec

variable {site : Site} {type : TypeExpr}

theorem refl (v : Value) : p.SameCodec site type v v :=
  ⟨rfl, rfl⟩

theorem generic {v w : Value} (h : p.SameCodec site (.primitive .object) v w) :
    p.writeGeneric site v = p.writeGeneric site w ∧ p.genericSize site v = p.genericSize site w := by
  have hwrite := h.write
  have hsize := h.size
  rw [writeTyped, writeTyped] at hwrite
  rw [typedSize, typedSize] at hsize
  exact ⟨hwrite, hsize⟩

theorem writeItems_eq {items others : List Value}
    (h : List.Forall₂ (p.SameCodec site type) items others) :
    p.writeItems site type items = p.writeItems site type others ∧
      p.itemsSize site type items = p.itemsSize site type others := by
  induction h with
  | nil => exact ⟨rfl, rfl⟩
  | @cons item other items others h _ ih =>
      rw [writeItems, writeItems, itemsSize, itemsSize, h.write, h.size, ih.1, ih.2]
      exact ⟨rfl, rfl⟩

/-- Items that are not the same are no numbers, and are written as where they stand alone. -/
theorem writeGenericItems_eq {items others : List Value}
    (h : List.Forall₂ (fun item other => p.Alike site (.primitive .object) item other ∧
      p.SameCodec site (.primitive .object) item other) items others) :
    p.writeGenericItems site items = p.writeGenericItems site others ∧
      p.genericItemsSize site items = p.genericItemsSize site others := by
  induction h with
  | nil => exact ⟨rfl, rfl⟩
  | @cons item other items others h _ ih =>
      obtain ⟨halike, hcodec⟩ := h
      obtain ⟨hwrite, hsize⟩ := hcodec.generic
      cases halike with
      | refl =>
          cases item <;> simp only [writeGenericItems, genericItemsSize, ih.1, ih.2, and_self]
      | _ => simp only [writeGenericItems, genericItemsSize, hwrite, hsize, ih.1, ih.2, and_self]

/-! Types that only pass a value on. -/

theorem flag {flag : Flag} {v w : Value} (h : p.SameCodec site type v w) :
    p.SameCodec site (.flag flag type) v w := by
  constructor
  · rw [writeTyped, writeTyped, h.write]
  · rw [typedSize, typedSize, h.size]

theorem var {name : String} {v w : Value} (htells : v.isSelfDescribing = w.isSelfDescribing)
    (h : p.SameCodec site (.primitive .object) v w) : p.SameCodec site (.var name) v w := by
  constructor
  · rw [writeTyped, writeTyped, htells, h.generic.1]
  · rw [typedSize, typedSize, h.generic.2]

theorem primitive {kind : Primitive} (hkind : kind ≠ .object) {v w : Value}
    (hwrite : writePrimitive site kind v = writePrimitive site kind w)
    (hsize : primitiveSize site kind v = primitiveSize site kind w) :
    p.SameCodec site (.primitive kind) v w := by
  constructor
  · rw [writeTyped_primitive hkind, writeTyped_primitive hkind, hwrite]
  · rw [typedSize_primitive hkind, typedSize_primitive hkind, hsize]

theorem vector {items others : List Value} (length : items.length = others.length)
    (h : ∀ inner, type.item? = some inner → List.Forall₂ (fun item other =>
      p.Alike site inner item other ∧ p.SameCodec site inner item other) items others) :
    p.SameCodec site type (.vector items) (.vector others) := by
  have hgeneric (hitem : type.item? = some (.primitive .object)) :
      p.SameCodec site (.primitive .object) (.vector items) (.vector others) := by
    obtain ⟨hwrite, hsize⟩ := writeGenericItems_eq (h _ hitem)
    constructor
    · rw [writeTyped, writeTyped, writeGeneric, writeGeneric, length, hwrite]
    · rw [typedSize, typedSize, genericSize, genericSize, hsize]
  induction type with
  | primitive kind =>
      by_cases hkind : kind = .object
      · subst hkind
        exact hgeneric rfl
      · exact .primitive hkind (by cases kind <;> rfl) (by cases kind <;> rfl)
  | flag flag inner ih => exact (ih h hgeneric).flag
  | var name => exact .var rfl (hgeneric rfl)
  | vector inner boxed ih =>
      obtain ⟨hwrite, hsize⟩ := writeItems_eq ((h inner rfl).imp fun _ _ => And.right)
      constructor
      · rw [writeTyped, writeTyped, length, hwrite]
      · rw [typedSize, typedSize, hsize]
  | named name bare => constructor <;> simp [writeTyped, typedSize]

theorem object {id : UInt32} {fields others : Fields}
    (h : ∀ d, p.declared site type id = some d → p.SameBody d fields others) :
    p.SameCodec site type (.object id fields) (.object id others) := by
  have hgeneric (hdeclared : ∀ d, p.dispatched id = .ok d → p.declared site type id = some d) :
      p.SameCodec site (.primitive .object) (.object id fields) (.object id others) := by
    constructor
    · rw [writeTyped, writeTyped, writeGeneric, writeGeneric]
      cases hd : p.dispatched id with
      | error e => rfl
      | ok d => simp only [(h d (hdeclared d hd)).write]
    · rw [typedSize, typedSize, genericSize, genericSize]
      cases hd : p.dispatched id with
      | error e => rfl
      | ok d => exact (h d (hdeclared d hd)).size
  induction type with
  | primitive kind =>
      by_cases hkind : kind = .object
      · subst hkind
        exact hgeneric fun d hd => by rw [declared, hd, Except.toOption]
      · exact .primitive hkind (by cases kind <;> rfl) (by cases kind <;> rfl)
  | flag flag inner ih => exact (ih h hgeneric).flag
  | var name => exact .var rfl (hgeneric fun d hd => by rw [declared, hd, Except.toOption])
  | vector inner boxed ih => constructor <;> simp [writeTyped, typedSize]
  | named name bare =>
      cases bare with
      | true =>
          have hbody {d : DeclarationPlan} (hd : p.bare site.schemaPrefix name = .ok d) :
              p.SameBody d fields others := h d (by rw [declared, hd, Except.toOption])
          constructor
          · rw [writeTyped, writeTyped]
            cases hd : p.bare site.schemaPrefix name with
            | error e => rfl
            | ok d => exact (hbody hd).write
          · rw [typedSize, typedSize]
            cases hd : p.bare site.schemaPrefix name with
            | error e => rfl
            | ok d =>
                show (do return (← p.objectSize d fields) - Layout.idSize) = _
                rw [(hbody hd).size]
                rfl
      | false =>
          have hbody {d : DeclarationPlan} (hd : p.typed site name id = .ok d) :
              p.SameBody d fields others := h d (by rw [declared, hd, Except.toOption])
          constructor
          · rw [writeTyped, writeTyped]
            cases hd : p.typed site name id with
            | error e => rfl
            | ok d => simp only [(hbody hd).write]
          · rw [typedSize, typedSize]
            cases hd : p.typed site name id with
            | error e => rfl
            | ok d => exact (hbody hd).size

end SameCodec

theorem mem_of_declared {site : Site} {type : TypeExpr} {id : UInt32} {d : DeclarationPlan}
    (h : p.declared site type id = some d) : d ∈ p.declarations := by
  have hok {result : Except CodecError DeclarationPlan} (hresult : result.toOption = some d) :
      result = .ok d := by
    cases result with
    | error e => cases hresult
    | ok found =>
        cases hresult
        rfl
  induction type with
  | primitive kind =>
      cases kind with
      | object => exact mem_of_dispatched (hok h)
      | _ => cases h
  | flag flag inner ih => exact ih h
  | var name => exact mem_of_dispatched (hok h)
  | vector inner boxed => cases h
  | named name bare =>
      cases bare with
      | true => exact mem_of_bare (hok h)
      | false => exact mem_of_dispatched (dispatched_of_typed (hok h))

theorem sameCodec_of_alike {schemas : List Schema} {capabilities : Capabilities}
    (hp : compile schemas capabilities = .ok p) {site : Site} {type : TypeExpr} {v w : Value}
    (h : p.Alike site type v w) : p.SameCodec site type v w := by
  induction h with
  | refl v => exact .refl v
  | @vector site type items others length each ih =>
      refine .vector length fun inner hinner => List.forall₂_iff_get.mpr ⟨length, fun i h h' => ?_⟩
      exact ⟨each inner hinner i h h', ih inner hinner i h h'⟩
  | @object site type id fields others presence values ih =>
      refine .object fun d hd => ?_
      have hfields : p.SameFields d fields others := ⟨presence d hd, values d hd, ih d hd⟩
      have hplanned := planned_of_mem hp (mem_of_declared hd)
      exact ⟨hfields.writeFields_eq hplanned, hfields.objectSize_eq hplanned⟩

/-- Values that differ only in the order of fields and in what is stored under other names than those
of stored fields have the same bytes and the same size, or cannot be written for the same reason. -/
theorem codec_eq_of_alike {schemas : List Schema} {capabilities : Capabilities}
    (hp : compile schemas capabilities = .ok p) {v w : Value}
    (h : p.Alike .top (.primitive .object) v w) : p.encode v = p.encode w ∧ p.size v = p.size w := by
  obtain ⟨hwrite, hsize⟩ := (sameCodec_of_alike hp h).generic
  exact ⟨congrArg Output.toExcept hwrite, hsize⟩

/-- Two people with the same name and the same home. The second one has a value for the flags word
and a nickname, and the home something that no place has. -/
theorem codec_eq_of_alike_person :
    let v : Value := .object 2
      [("name", .string "ab"), ("home", .object 1 [("x", .int 3), ("y", .int 4)])]
    let w : Value := .object 2
      [("flags", .int 7), ("home", .object 1 [("y", .int 4), ("z", .bool true), ("x", .int 3)]),
        ("nick", .string "c"), ("name", .string "ab")]
    people.Alike .top (.primitive .object) v w ∧
      people.encode v = people.encode w ∧ people.size v = people.size w := by
  intro v w
  have hhome : people.Alike (person.site (person.layout.fields.getD 1 default))
      (.named ⟨[], "place"⟩ true) (.object 1 [("x", .int 3), ("y", .int 4)])
      (.object 1 [("y", .int 4), ("z", .bool true), ("x", .int 3)]) := by
    refine .of_perm (by decide) (by decide) fun d hd => ?_
    obtain rfl : people.declarations.getD 0 default = d := Option.some.inj hd
    exact .swap ..
  have halike : people.Alike .top (.primitive .object) v w := by
    refine .object (fun d hd => ?_) fun d hd f hf v w hv hw => ?_
    · obtain rfl : person = d := Option.some.inj hd
      decide
    · obtain rfl : person = d := Option.some.inj hd
      have hstored : person.stored = person.layout.fields.drop 1 := by
        decide
      obtain rfl | rfl | rfl : f = person.layout.fields.getD 1 default ∨
          f = person.layout.fields.getD 2 default ∨ f = person.layout.fields.getD 3 default := by
        rw [hstored] at hf
        exact List.mem_cons.mp hf |>.imp_right (List.mem_pair.mp ·)
      · cases hv
        cases hw
        exact hhome
      · cases hv
        cases hw
        exact .refl _
      · cases hv
  exact ⟨halike, codec_eq_of_alike compile_people halike⟩

end PlanSet

end TypeLang
