import Mathlib
import TypeLang.Codec.Size
import TypeLang.Proofs.Codec.Fields
import TypeLang.Proofs.Plan.Layout

/-!
# Sizes are lengths

The size formulas of a plan set and its writer go through a value in different ways: the formulas
take the fixed part of a declaration as known and look only at its probes, the writer looks at every
field. Whatever the writer accepts, `size_of_encode` says that both agree.
-/

namespace TypeLang

namespace PlanSet

/-! ## Primitive values -/

theorem primitiveSize_of_writePrimitive {site : Site} {kind : Primitive} {v : Value}
    {bytes : List UInt8} (h : writePrimitive site kind v = .ofBytes bytes) :
    primitiveSize site kind v = .ok bytes.length := by
  unfold writePrimitive at h
  split at h
  case h_5 payload =>
      obtain ⟨hlength, rfl⟩ := writePayload_eq_ofBytes.mp h
      rw [primitiveSize, site.checkLength_of_le hlength, Wire.length_payload]
      rfl
  case h_6 text =>
      obtain ⟨hlength, rfl⟩ := writePayload_eq_ofBytes.mp h
      rw [Text.length_toUtf8] at hlength
      rw [primitiveSize, site.checkLength_of_le hlength, Wire.length_payload]
      rfl
  case h_9 json =>
      rw [Output.ofBytes_inj] at h
      rw [← h, primitiveSize, JsonValue.length_encode]
  case h_11 =>
      exact (Output.failed_ne_ofBytes _ _ h).elim
  all_goals
    cases h
    simp [primitiveSize, Wire.int32, Wire.int64, Wire.uint64, Wire.bool]

theorem primitiveSize_eq_fixedSize {site : Site} {kind : Primitive} {v : Value} {size n : Nat}
    (hsize : kind.fixedSize? = some size) (h : primitiveSize site kind v = .ok n) : n = size := by
  unfold primitiveSize at h
  split at h
  all_goals first
    | cases hsize; cases h; rfl
    | cases hsize
    | cases h

variable {p : PlanSet}

theorem typedSize_primitive {site : Site} {kind : Primitive} (hkind : kind ≠ .object) (v : Value) :
    p.typedSize site (.primitive kind) v = primitiveSize site kind v := by
  cases kind <;> first | exact absurd rfl hkind | rw [typedSize]; exact hkind

/-- What the size formulas say of a value that the writer accepts, wherever it stands. -/
structure SizesAgree (p : PlanSet) (v : Value) : Prop where
  generic : ∀ site bytes, p.writeGeneric site v = .ofBytes bytes →
    p.genericSize site v = .ok bytes.length
  typed : ∀ site type bytes, p.writeTyped site type v = .ofBytes bytes →
    p.typedSize site type v = .ok bytes.length

/-! ## Items -/

theorem itemsSize_of_writeItems {items : List Value} (hitems : ∀ item ∈ items, p.SizesAgree item)
    {site : Site} {type : TypeExpr} {bytes : List UInt8}
    (h : p.writeItems site type items = .ofBytes bytes) :
    p.itemsSize site type items = .ok bytes.length := by
  induction items generalizing bytes with
  | nil =>
      rw [writeItems] at h
      cases h
      rw [itemsSize]
      rfl
  | cons item items ih =>
      rw [writeItems] at h
      obtain ⟨front, back, hfront, hback, rfl⟩ := Output.append_eq_ofBytes.mp h
      have hitem := (hitems item List.mem_cons_self).typed site type front hfront
      have hrest := ih (fun other hother => hitems other (List.mem_cons_of_mem _ hother)) hback
      rw [itemsSize, hitem, hrest, List.length_append]
      rfl

theorem genericItemsSize_of_writeGenericItems {items : List Value}
    (hitems : ∀ item ∈ items, p.SizesAgree item) {site : Site} {bytes : List UInt8}
    (h : p.writeGenericItems site items = .ofBytes bytes) :
    p.genericItemsSize site items = .ok bytes.length := by
  induction items generalizing bytes with
  | nil =>
      rw [writeGenericItems] at h
      cases h
      rw [genericItemsSize]
      rfl
  | cons item items ih =>
      have hrest {more : List UInt8} (hmore : p.writeGenericItems site items = .ofBytes more) :
          p.genericItemsSize site items = .ok more.length :=
        ih (fun other hother => hitems other (List.mem_cons_of_mem _ hother)) hmore
      unfold writeGenericItems at h
      split at h
      case h_1 heq => cases heq
      case h_2 heq =>
          cases heq
          obtain ⟨front, back, hfront, hback, rfl⟩ := Output.append_eq_ofBytes.mp h
          rw [Output.ofBytes_inj] at hfront
          rw [genericItemsSize, hrest hback, ← hfront]
          simp [Wire.int32]
      case h_3 heq =>
          cases heq
          obtain ⟨front, back, hfront, hback, rfl⟩ := Output.append_eq_ofBytes.mp h
          rw [Output.ofBytes_inj] at hfront
          rw [genericItemsSize, hrest hback, ← hfront]
          simp [Wire.int64, Wire.uint64]
      case h_4 hint hlong heq =>
          cases heq
          obtain ⟨front, back, hfront, hback, rfl⟩ := Output.append_eq_ofBytes.mp h
          have hitem := (hitems item List.mem_cons_self).generic site front hfront
          rw [genericItemsSize, hitem, hrest hback, List.length_append]
          · rfl
          · exact hint
          · exact hlong

/-! ## Objects -/

theorem probesSize_append (d : DeclarationPlan) (fields : Fields) {first rest : List Probe}
    {m n : Nat} (hfirst : p.probesSize d fields first = .ok m)
    (hrest : p.probesSize d fields rest = .ok n) :
    p.probesSize d fields (first ++ rest) = .ok (m + n) := by
  induction first generalizing m with
  | nil =>
      rw [probesSize] at hfirst
      cases hfirst
      rw [List.nil_append, hrest, Nat.zero_add]
  | cons probe first ih =>
      rw [probesSize] at hfirst
      obtain ⟨size, hprobe, hfirst⟩ := bind_eq_ok.mp hfirst
      obtain ⟨more, hmore, hfirst⟩ := bind_eq_ok.mp hfirst
      cases hfirst
      rw [List.cons_append, probesSize, hprobe, ih hmore, Nat.add_assoc]
      rfl

theorem probeSize_of_index {d : DeclarationPlan} {fields : Fields} {probe : Probe} {f : FieldPlan}
    (hf : d.layout.fields[probe.index]? = some f) :
    p.probeSize d fields probe =
      match fields.get? f.name with
      | none => if probe.condition.isSome then .ok 0 else .error (.missingField d.name f.name)
      | some v =>
        match f.kind with
        | .fixed size => .ok size
        | _ => p.typedSize (d.site f) f.valueType v := by
  rw [probeSize, hf]
  simp only
  split
  · rename_i hget
    simp only [hget]
  · rename_i hget
    cases f.kind <;> simp only [hget]

theorem probeSize_of_field {d : DeclarationPlan} {fields : Fields} {probe : Probe} {f : FieldPlan}
    (hf : d.layout.fields[probe.index]? = some f) :
    (fields.get? f.name = none → probe.condition.isSome → p.probeSize d fields probe = .ok 0) ∧
      ∀ v, fields.get? f.name = some v →
        (∀ size, f.kind = .fixed size → p.probeSize d fields probe = .ok size) ∧
        (f.kind = .dynamic →
          p.probeSize d fields probe = p.typedSize (d.site f) f.valueType v) := by
  rw [probeSize_of_index hf]
  constructor
  · intro hget hcondition
    rw [hget]
    exact if_pos hcondition
  · intro v hget
    rw [hget]
    constructor
    · intro size hkind
      simp only [hkind]
    · intro hkind
      simp only [hkind]

theorem length_of_writeTyped_fixed {site : Site} {type : TypeExpr} {size : Nat}
    (hsize : Layout.fixedSize? type = some size) {v : Value} {bytes : List UInt8}
    (h : p.writeTyped site type v = .ofBytes bytes) : bytes.length = size := by
  unfold Layout.fixedSize? at hsize
  split at hsize
  · cases hsize
  · rename_i kind _
    have hkind : kind ≠ .object := by
      rintro rfl
      cases hsize
    rw [writeTyped_primitive hkind] at h
    exact primitiveSize_eq_fixedSize hsize (primitiveSize_of_writePrimitive h)
  · cases hsize

theorem probesSize_singleton {d : DeclarationPlan} {fields : Fields} {probe : Probe} {n : Nat}
    (h : p.probeSize d fields probe = .ok n) : p.probesSize d fields [probe] = .ok n := by
  rw [probesSize, h, probesSize]
  rfl

/-- A value takes its share of the base if it is always there and of fixed size, and otherwise what
its probe counts. -/
theorem length_of_writeField_value {d : DeclarationPlan} {fields : Fields}
    {presence : List (String × List PresenceBit)} {q : Parameter} {index : Nat}
    (hindex : d.layout.fields[index]? = some (Layout.fieldPlan presence q))
    (hword : q.type.erased ≠ .primitive .flags) (hbit : q.type.erased ≠ .primitive .trueLiteral)
    (hvalue : ∀ v, fields.get? q.name = some v → p.SizesAgree v) {bytes : List UInt8}
    (h : p.writeField d fields (Layout.fieldPlan presence q) = .ofBytes bytes) :
    ∃ n, p.probesSize d fields (Layout.probe? q index).toList = .ok n ∧
      bytes.length = Layout.width q + n := by
  have hkind : Layout.fieldKind presence q = _ := Layout.fieldKind_of_value hword hbit
  have hwidth : Layout.width q =
      if q.type.flag?.isNone then (Layout.fixedSize? q.type.erased).getD 0 else 0 := by
    simp [Layout.width, Parameter.declaresWord, TypeExpr.isFlagsWord, hword]
  have hprobe (kind : ProbeKind) :=
    @probeSize_of_field p d fields ⟨index, q.name, kind, q.type.flag?⟩ _ hindex
  have hwrite := @writeField_value p d fields _
    ((Layout.treatment_fieldPlan presence q).kind_of_value hword hbit)
  rw [Layout.probe?_of_value hword hbit, hwidth]
  rw [hwrite] at h
  cases hsize : Layout.fixedSize? q.type.erased with
  | none =>
      rw [hsize] at hkind
      refine ⟨bytes.length, probesSize_singleton ?_, by simp⟩
      split at h
      · rename_i v hget
        rw [((hprobe _).2 v hget).2 hkind]
        exact (hvalue v hget).typed _ _ _ h
      · rename_i hget
        split at h
        · rename_i hflag
          cases h
          exact (hprobe _).1 hget hflag
        · exact (Output.failed_ne_ofBytes _ _ h).elim
  | some size =>
      rw [hsize] at hkind
      cases hflag : q.type.flag? with
      | none =>
          refine ⟨0, ?_, ?_⟩
          · show p.probesSize d fields [] = .ok 0
            rw [probesSize]
          show bytes.length = size
          split at h
          · exact length_of_writeTyped_fixed hsize h
          · rw [if_neg (by simp [FieldPlan.flag?, Layout.fieldPlan, hflag])] at h
            exact (Output.failed_ne_ofBytes _ _ h).elim
      | some flag =>
          simp only [hflag] at hprobe
          split at h
          · rename_i v hget
            refine ⟨size, probesSize_singleton (((hprobe _).2 v hget).1 size hkind), ?_⟩
            have hlength := length_of_writeTyped_fixed hsize h
            simpa using hlength
          · rename_i hget
            rw [if_pos (by simp [FieldPlan.flag?, Layout.fieldPlan, hflag])] at h
            cases h
            exact ⟨0, probesSize_singleton ((hprobe _).1 hget rfl), by simp⟩

/-- A field takes its share of the base and what its probe counts, if it has one. -/
theorem length_of_writeField {d : DeclarationPlan} {fields : Fields}
    {presence : List (String × List PresenceBit)} {q : Parameter} {index : Nat}
    (hindex : d.layout.fields[index]? = some (Layout.fieldPlan presence q))
    (hvalue : ∀ v, fields.get? q.name = some v → p.SizesAgree v) {bytes : List UInt8}
    (h : p.writeField d fields (Layout.fieldPlan presence q) = .ofBytes bytes) :
    ∃ n, p.probesSize d fields (Layout.probe? q index).toList = .ok n ∧
      bytes.length = Layout.width q + n := by
  cases Layout.treatment_fieldPlan presence q with
  | word _ kind type =>
      replace type : q.type.erased = .primitive .flags := type
      rw [writeField_word kind, Output.ofBytes_inj] at h
      refine ⟨0, ?_, ?_⟩
      · rw [Layout.probe?_eq_none (.inl type), Option.toList_none, probesSize]
      · rw [← h, Wire.length_uint32]
        simp [Layout.width, Parameter.declaresWord, TypeExpr.isFlagsWord, type,
          Layout.fixedSize?, Primitive.fixedSize?]
  | bit kind type =>
      replace type : q.type.erased = .primitive .trueLiteral := type
      rw [writeField_bit kind] at h
      cases h
      refine ⟨0, ?_, ?_⟩
      · rw [Layout.probe?_eq_none (.inr type), Option.toList_none, probesSize]
      · simp [Layout.width, type, Layout.fixedSize?]
  | value _ word bit => exact length_of_writeField_value hindex word bit hvalue h

/-- The fields from some position on take their shares of the base and what their probes count. -/
theorem length_of_writeFields {d : DeclarationPlan} {fields : Fields}
    {presence : List (String × List PresenceBit)} {front back : List Parameter}
    (hfields : d.layout.fields = (front ++ back).map (Layout.fieldPlan presence))
    (hvalue : ∀ name v, fields.get? name = some v → p.SizesAgree v) {bytes : List UInt8}
    (h : p.writeFields d fields (back.map (Layout.fieldPlan presence)) = .ofBytes bytes) :
    ∃ n, p.probesSize d fields
        ((back.zipIdx front.length).filterMap fun q => Layout.probe? q.1 q.2) = .ok n ∧
      bytes.length = (back.map Layout.width).sum + n := by
  induction back generalizing front bytes with
  | nil =>
      rw [List.map_nil, writeFields_nil] at h
      cases h
      exact ⟨0, by rw [List.zipIdx_nil, List.filterMap_nil, probesSize], rfl⟩
  | cons q back ih =>
      rw [List.map_cons, writeFields_cons] at h
      obtain ⟨first, rest, hfirst, hrest, rfl⟩ := Output.append_eq_ofBytes.mp h
      have hindex : d.layout.fields[front.length]? = some (Layout.fieldPlan presence q) := by
        rw [hfields]
        simp
      obtain ⟨m, hm, hfront⟩ := length_of_writeField hindex (hvalue q.name) hfirst
      have hsplit : d.layout.fields = ((front ++ [q]) ++ back).map (Layout.fieldPlan presence) := by
        rw [hfields, List.append_assoc]
        rfl
      obtain ⟨n, hn, hback⟩ := ih hsplit hrest
      rw [List.length_append, List.length_singleton] at hn
      refine ⟨m + n, ?_, ?_⟩
      · have happend := probesSize_append d fields hm hn
        rw [List.zipIdx_cons, List.filterMap_cons]
        cases hprobe : Layout.probe? q front.length with
        | none => simpa [hprobe] using happend
        | some probe => simpa [hprobe] using happend
      · rw [List.length_append, hfront, hback, List.map_cons, List.sum_cons]
        omega

theorem objectSize_of_writeFields {d : DeclarationPlan} (hd : d.layout.IsPlanned) {fields : Fields}
    (hvalue : ∀ name v, fields.get? name = some v → p.SizesAgree v) {bytes : List UInt8}
    (h : p.writeFields d fields d.layout.fields = .ofBytes bytes) :
    p.objectSize d fields = .ok (Layout.idSize + bytes.length) := by
  obtain ⟨decl, hdecl⟩ := hd
  obtain ⟨-, -, hfields, hbase, hprobes⟩ := Layout.ofDeclaration_eq_ok hdecl
  rw [hfields] at h
  obtain ⟨n, hn, hlength⟩ :=
    @length_of_writeFields p d fields _ [] decl.params hfields hvalue bytes h
  rw [objectSize, hprobes, hbase]
  rw [List.length_nil] at hn
  rw [hn, hlength, ← Nat.add_assoc]
  rfl

/-! ## Values -/

theorem eq_vector_of_writeTyped {site : Site} {inner : TypeExpr} {boxed : Bool} {v : Value}
    {bytes : List UInt8} (h : p.writeTyped site (.vector inner boxed) v = .ofBytes bytes) :
    ∃ items, v = .vector items := by
  cases v with
  | vector items => exact ⟨items, rfl⟩
  | _ => simp [writeTyped] at h

theorem eq_object_of_writeTyped {site : Site} {name : QualifiedName} {bare : Bool} {v : Value}
    {bytes : List UInt8} (h : p.writeTyped site (.named name bare) v = .ofBytes bytes) :
    ∃ id fields, v = .object id fields := by
  cases v with
  | object id fields => exact ⟨id, fields, rfl⟩
  | _ => simp [writeTyped] at h

theorem sizeOf_lt_of_mem_vector {item : Value} {items : List Value} (h : item ∈ items) :
    sizeOf item < sizeOf (Value.vector items) := by
  have hitem := List.sizeOf_lt_of_mem h
  rw [Value.vector.sizeOf_spec]
  omega

theorem sizeOf_lt_of_get?_object {id : UInt32} {fields : Fields} {name : String} {v : Value}
    (h : fields.get? name = some v) : sizeOf v < sizeOf (Value.object id fields) := by
  have hfield := Fields.sizeOf_lt_of_get? h
  rw [Value.object.sizeOf_spec]
  omega

section

variable {schemas : List Schema} {capabilities : Capabilities}
  (hp : compile schemas capabilities = .ok p) {v : Value}
  (hparts : ∀ w, sizeOf w < sizeOf v → p.SizesAgree w)

include hp hparts

theorem genericSize_of_writeGeneric {site : Site} {bytes : List UInt8}
    (h : p.writeGeneric site v = .ofBytes bytes) : p.genericSize site v = .ok bytes.length := by
  unfold writeGeneric at h
  split at h
  case h_1 id fields =>
      split at h
      · rename_i d hd
        obtain ⟨front, back, hfront, hback, rfl⟩ := Output.append_eq_ofBytes.mp h
        rw [Output.ofBytes_inj] at hfront
        have hobject := objectSize_of_writeFields (planned_of_mem hp (mem_of_dispatched hd))
          (fun _ w hw => hparts w (sizeOf_lt_of_get?_object hw)) hback
        rw [genericSize, hd, ← hfront, List.length_append, Wire.length_uint32]
        exact hobject
      · exact (Output.failed_ne_ofBytes _ _ h).elim
  case h_2 =>
      rw [Output.ofBytes_inj] at h
      rw [← h, genericSize, Wire.bool, Wire.length_uint32]
  case h_3 =>
      rw [Output.ofBytes_inj] at h
      rw [← h, genericSize, JsonValue.length_encode]
  case h_4 items =>
      obtain ⟨front, back, hfront, hback, rfl⟩ := Output.append_eq_ofBytes.mp h
      rw [Output.ofBytes_inj] at hfront
      have hitems := genericItemsSize_of_writeGenericItems
        (fun item hitem => hparts item (sizeOf_lt_of_mem_vector hitem)) hback
      rw [genericSize, hitems, ← hfront]
      simp [Wire.vectorHeader, Wire.count, ← Nat.add_assoc]
  case h_5 => exact (Output.failed_ne_ofBytes _ _ h).elim

theorem typedSize_of_writeTyped {site : Site} {type : TypeExpr} {bytes : List UInt8}
    (h : p.writeTyped site type v = .ofBytes bytes) :
    p.typedSize site type v = .ok bytes.length := by
  induction type with
  | primitive kind =>
      by_cases hkind : kind = .object
      · subst hkind
        rw [writeTyped] at h
        rw [typedSize]
        exact genericSize_of_writeGeneric hp hparts h
      · rw [writeTyped_primitive hkind] at h
        rw [typedSize_primitive hkind]
        exact primitiveSize_of_writePrimitive h
  | flag flag inner ih =>
      rw [writeTyped] at h
      rw [typedSize]
      exact ih h
  | var name =>
      rw [writeTyped] at h
      rw [typedSize]
      split at h
      · exact genericSize_of_writeGeneric hp hparts h
      · exact (Output.failed_ne_ofBytes _ _ h).elim
  | vector inner boxed ih =>
      obtain ⟨items, rfl⟩ := eq_vector_of_writeTyped h
      rw [writeTyped] at h
      obtain ⟨front, back, hfront, hback, rfl⟩ := Output.append_eq_ofBytes.mp h
      rw [Output.ofBytes_inj] at hfront
      have hitems := itemsSize_of_writeItems
        (fun item hitem => hparts item (sizeOf_lt_of_mem_vector hitem)) hback
      rw [typedSize, hitems, ← hfront]
      cases boxed <;> simp [Wire.vectorHeader, Wire.count, ← Nat.add_assoc]
  | named name bare =>
      obtain ⟨id, fields, rfl⟩ := eq_object_of_writeTyped h
      have hobject {d : DeclarationPlan} (hd : d ∈ p.declarations) {bytes : List UInt8}
          (hwrite : p.writeFields d fields d.layout.fields = .ofBytes bytes) :
          p.objectSize d fields = .ok (Layout.idSize + bytes.length) :=
        objectSize_of_writeFields (planned_of_mem hp hd)
          (fun _ w hw => hparts w (sizeOf_lt_of_get?_object hw)) hwrite
      cases bare with
      | true =>
          rw [writeTyped] at h
          split at h
          · rename_i d hd
            rw [typedSize, hd]
            show (do return (← p.objectSize d fields) - Layout.idSize) = _
            rw [hobject (mem_of_bare hd) h]
            show Except.ok (Layout.idSize + bytes.length - Layout.idSize) = _
            rw [Nat.add_sub_cancel_left]
          · exact (Output.failed_ne_ofBytes _ _ h).elim
      | false =>
          rw [writeTyped] at h
          split at h
          · rename_i d hd
            obtain ⟨front, back, hfront, hback, rfl⟩ := Output.append_eq_ofBytes.mp h
            rw [Output.ofBytes_inj] at hfront
            rw [typedSize, hd, ← hfront, List.length_append, Wire.length_uint32]
            exact hobject (mem_of_dispatched (dispatched_of_typed hd)) hback
          · exact (Output.failed_ne_ofBytes _ _ h).elim

end

theorem sizesAgree {schemas : List Schema} {capabilities : Capabilities}
    (hp : compile schemas capabilities = .ok p) (v : Value) : p.SizesAgree v := by
  have hparts : ∀ w, sizeOf w < sizeOf v → p.SizesAgree w := fun w _ => sizesAgree hp w
  exact ⟨fun _ _ => genericSize_of_writeGeneric hp hparts,
    fun _ _ _ => typedSize_of_writeTyped hp hparts⟩
termination_by sizeOf v

/-- The size of a value is the number of its bytes, and writing it behind a buffer only adds its
bytes to the buffer. A value that cannot be written leaves the buffer in front of what was written
of it. -/
theorem size_of_encode {schemas : List Schema} {capabilities : Capabilities}
    (hp : compile schemas capabilities = .ok p) (v : Value) (buffer : List UInt8) :
    (∀ bytes, p.encode v = .ok bytes →
      p.size v = .ok bytes.length ∧ p.encodeInto v buffer = .ofBytes (buffer ++ bytes)) ∧
    (∀ e, p.encode v = .error e →
      (p.encodeInto v buffer).failure = some e ∧ buffer <+: (p.encodeInto v buffer).bytes) := by
  constructor
  · intro bytes h
    have hwrite : p.write v = .ofBytes bytes := Output.toExcept_eq_ok.mp h
    refine ⟨(sizesAgree hp v).generic _ _ hwrite, ?_⟩
    rw [encodeInto, hwrite, Output.ofBytes_append_ofBytes]
  · intro e h
    have hfailure : (p.write v).failure = some e := Output.toExcept_eq_error.mp h
    rw [encodeInto, Output.ofBytes_append]
    exact ⟨hfailure, List.prefix_append ..⟩

theorem size_of_encode_person :
    let v : Value :=
      .object 2 [("name", .string "ab"), ("home", .object 1 [("x", .int 3), ("y", .int 4)])]
    people.encode v = .ok [2, 0, 0, 0, 1, 0, 0, 0, 3, 0, 0, 0, 4, 0, 0, 0, 2, 97, 98, 0] ∧
      people.size v = .ok 20 := by
  have hencode : people.encode (.object 2 [("name", .string "ab"),
      ("home", .object 1 [("x", .int 3), ("y", .int 4)])])
      = .ok [2, 0, 0, 0, 1, 0, 0, 0, 3, 0, 0, 0, 4, 0, 0, 0, 2, 97, 98, 0] := by
    cbv
  exact ⟨hencode, ((size_of_encode compile_people _ []).1 _ hencode).1⟩

end PlanSet

end TypeLang
