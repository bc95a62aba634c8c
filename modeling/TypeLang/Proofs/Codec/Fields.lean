import TypeLang.Codec.Reading
import TypeLang.Codec.Writing
import TypeLang.Proofs.Plan.Compiled
import TypeLang.Proofs.Plan.Presence

/-!
# Fields of objects

The writer and the reader of an object treat its fields one by one, and each field in one of three
ways: it is a flags word, a bit of one, or a value.
-/

namespace TypeLang

/-! ## Values without parts -/

theorem Site.checkLength_of_le (site : Site) {n : Nat} (h : n ≤ Wire.maxPayload) :
    site.checkLength n = .ok n := by
  rw [checkLength, if_neg (by omega)]

namespace PlanSet

theorem writePayload_eq_ofBytes {site : Site} {payload bytes : List UInt8} :
    writePayload site payload = .ofBytes bytes ↔
      payload.length ≤ Wire.maxPayload ∧ Wire.payload payload = bytes := by
  unfold writePayload Site.checkLength
  split
  · rename_i hlength
    split at hlength
    · cases hlength
    · simp; omega
  · rename_i hlength
    split at hlength
    · simp; omega
    · cases hlength

theorem writeTyped_primitive {p : PlanSet} {site : Site} {kind : Primitive}
    (hkind : kind ≠ .object) (v : Value) :
    p.writeTyped site (.primitive kind) v = writePrimitive site kind v := by
  cases kind <;> first | exact absurd rfl hkind | rw [writeTyped]; exact hkind

end PlanSet

/-! ## Entries -/

namespace Fields

variable {fields : Fields} {name : String} {v : Value}

theorem get?_eq_none_of_notMem (h : name ∉ fields.map (·.1)) : fields.get? name = none :=
  Association.lookup_eq_none_iff_notMem.mpr h

theorem mem_keys_of_get? (h : fields.get? name = some v) : name ∈ fields.map (·.1) :=
  Association.isSome_lookup_iff_mem.mp (Option.isSome_iff_exists.mpr ⟨v, h⟩)

theorem set_of_notMem (h : name ∉ fields.map (·.1)) (v : Value) :
    fields.set name v = fields ++ [(name, v)] := by
  have hcontains : fields.contains name = false := by
    rw [contains, get?_eq_none_of_notMem h]
    rfl
  rw [set, hcontains]
  rfl

end Fields

/-! ## Treatments -/

namespace FieldPlan

inductive Treatment (f : FieldPlan) : Prop where
  | word (unused : Bool) (kind : f.kind = .flagsWord unused)
      (type : f.valueType = .primitive .flags)
  | bit (kind : f.kind = .trueBit) (type : f.valueType = .primitive .trueLiteral)
  | value (kind : (∃ size, f.kind = .fixed size) ∨ f.kind = .dynamic)
      (word : f.valueType ≠ .primitive .flags) (bit : f.valueType ≠ .primitive .trueLiteral)

theorem Treatment.kind_of_value {f : FieldPlan} (h : f.Treatment)
    (hword : f.valueType ≠ .primitive .flags) (hbit : f.valueType ≠ .primitive .trueLiteral) :
    (∃ size, f.kind = .fixed size) ∨ f.kind = .dynamic := by
  cases h with
  | word _ _ type => exact absurd type hword
  | bit _ type => exact absurd type hbit
  | value kind => exact kind

theorem Treatment.type_of_bit {f : FieldPlan} (h : f.Treatment) (hkind : f.kind = .trueBit) :
    f.valueType = .primitive .trueLiteral := by
  cases h with
  | word _ kind => rw [hkind] at kind; cases kind
  | bit _ type => exact type
  | value kind =>
      rcases kind with ⟨size, kind⟩ | kind <;> rw [hkind] at kind <;> cases kind

theorem Treatment.kind_ne_bit {f : FieldPlan} (h : f.Treatment)
    (htype : f.valueType ≠ .primitive .trueLiteral) : f.kind ≠ .trueBit :=
  fun hkind => htype (h.type_of_bit hkind)

end FieldPlan

theorem Layout.fieldKind_of_value {presence : List (String × List PresenceBit)} {q : Parameter}
    (hword : q.type.erased ≠ .primitive .flags) (hbit : q.type.erased ≠ .primitive .trueLiteral) :
    fieldKind presence q =
      match fixedSize? q.type.erased with
      | some size => .fixed size
      | none => .dynamic := by
  unfold fieldKind
  split
  · rename_i h
    exact absurd h hword
  · rename_i h
    exact absurd h hbit
  · rfl

theorem Layout.treatment_fieldPlan (presence : List (String × List PresenceBit)) (q : Parameter) :
    (fieldPlan presence q).Treatment := by
  by_cases hword : q.type.erased = .primitive .flags
  · refine .word ((presence.lookup q.name).getD []).isEmpty ?_ hword
    simp only [fieldPlan, fieldKind, hword]
  · by_cases hbit : q.type.erased = .primitive .trueLiteral
    · refine .bit ?_ hbit
      simp only [fieldPlan, fieldKind, hbit]
    · refine .value ?_ hword hbit
      have hkind := @fieldKind_of_value presence q hword hbit
      cases hsize : fixedSize? q.type.erased with
      | some size =>
          rw [hsize] at hkind
          exact .inl ⟨size, hkind⟩
      | none =>
          rw [hsize] at hkind
          exact .inr hkind

theorem Layout.IsPlanned.treatment {l : Layout} (h : l.IsPlanned) {f : FieldPlan}
    (hf : f ∈ l.fields) : f.Treatment := by
  obtain ⟨d, hd⟩ := h
  rw [(ofDeclaration_eq_ok hd).2.2.1] at hf
  obtain ⟨q, -, rfl⟩ := List.mem_map.mp hf
  exact treatment_fieldPlan _ q

/-! ## Declarations that repeat no name -/

namespace Layout

def Distinct (l : Layout) : Prop :=
  (l.fields.map (·.name)).Nodup

variable {l : Layout} {f : FieldPlan}

theorem Distinct.eq_of_name_eq (h : l.Distinct) {g : FieldPlan} (hf : f ∈ l.fields)
    (hg : g ∈ l.fields) (hname : f.name = g.name) : f = g :=
  List.inj_on_of_nodup_map h hf hg hname

theorem Distinct.field?_eq (h : l.Distinct) (hf : f ∈ l.fields) : l.field? f.name = some f :=
  Association.find?_eq_some_of_mem h hf

/-- A word that is not declared twice tells about all fields that use it. -/
theorem Distinct.gates_iff (h : l.Distinct) (hplanned : l.IsPlanned) {flag : Flag} :
    l.Gates flag f ↔ f ∈ l.fields ∧ f.flag? = some flag := by
  constructor
  · rintro ⟨front, back, hsplit, hflag, -⟩
    rw [hsplit]
    exact ⟨List.mem_append_right _ List.mem_cons_self, hflag⟩
  · rintro ⟨hf, hflag⟩
    obtain ⟨front, back, hsplit⟩ := List.append_of_mem hf
    obtain ⟨w, hw, hword⟩ := exists_word hplanned hsplit hflag
    refine ⟨front, back, hsplit, hflag, ?_⟩
    intro g hg
    have hnames := h
    unfold Distinct at hnames
    rw [hsplit, List.map_append, List.nodup_append] at hnames
    have hne := hnames.2.2 w.name (List.mem_map_of_mem hw) g.name (List.mem_map_of_mem hg)
    by_contra hg
    simp only [FieldPlan.isWord, Bool.and_eq_true, beq_iff_eq, Bool.not_eq_false] at hword hg
    exact hne (hword.2.trans hg.2.symm)

theorem Distinct.isPresent_bit (h : l.Distinct) (hf : f ∈ l.fields) (hkind : f.kind = .trueBit)
    (fields : Fields) : l.isPresent fields f.name ↔ fields.get? f.name = some (.bool true) := by
  unfold isPresent
  rw [h.field?_eq hf, Option.any_some, hkind, if_pos BEq.rfl]
  split
  · rename_i value hget
    rw [hget, Option.some.injEq, Value.bool.injEq]
  · rename_i hother
    constructor
    · intro hfalse
      cases hfalse
    · intro hget
      exact (hother true hget).elim

theorem Distinct.isPresent_value (h : l.Distinct) (hf : f ∈ l.fields)
    (hkind : f.kind ≠ .trueBit) (fields : Fields) :
    l.isPresent fields f.name = fields.contains f.name := by
  unfold isPresent
  rw [h.field?_eq hf, Option.any_some, if_neg (by simpa using hkind)]

end Layout

/-! ## Writing and reading fields -/

namespace PlanSet

theorem planned_of_mem {schemas : List Schema} {capabilities : Capabilities} {p : PlanSet}
    {d : DeclarationPlan} (hp : compile schemas capabilities = .ok p) (hd : d ∈ p.declarations) :
    d.layout.IsPlanned := by
  obtain ⟨_, -, decl, -, hdecl⟩ := exists_declaration hp hd
  exact ⟨decl, hdecl⟩

/-- If no declaration of the schemas repeats a parameter name, no layout repeats a field name. -/
theorem distinct_of_params {schemas : List Schema} {capabilities : Capabilities} {p : PlanSet}
    (hp : compile schemas capabilities = .ok p)
    (hnames : ∀ s ∈ schemas, ∀ decl ∈ s.declarations, (decl.params.map (·.name)).Nodup) :
    ∀ d ∈ p.declarations, d.layout.Distinct := by
  intro d hd
  obtain ⟨s, hs, decl, hdecl, hlayout⟩ := exists_declaration hp hd
  unfold Layout.Distinct
  rw [(Layout.ofDeclaration_eq_ok hlayout).2.2.1, List.map_map]
  exact hnames s hs decl hdecl

def writeField (p : PlanSet) (d : DeclarationPlan) (fields : Fields) (f : FieldPlan) : Output :=
  match f.kind with
  | .flagsWord _ => .ofBytes (Wire.uint32 (d.layout.flagsWord fields f.name))
  | .trueBit => .empty
  | _ =>
    match fields.get? f.name with
    | some v => writeTyped p (d.site f) f.valueType v
    | none => if f.flag?.isSome then .empty else .failed (.missingField d.name f.name)

theorem writeFields_nil (p : PlanSet) (d : DeclarationPlan) (fields : Fields) :
    p.writeFields d fields [] = .empty := by
  rw [writeFields]

theorem writeFields_cons (p : PlanSet) (d : DeclarationPlan) (fields : Fields) (f : FieldPlan)
    (rest : List FieldPlan) :
    p.writeFields d fields (f :: rest) =
      p.writeField d fields f ++ p.writeFields d fields rest := by
  rw [writeFields, writeField]
  cases f.kind <;> simp only
  all_goals
    congr 1
    split <;> rename_i h <;> simp only [h]

variable {p : PlanSet} {d : DeclarationPlan} {fields : Fields} {f : FieldPlan}

theorem writeField_word {unused : Bool} (h : f.kind = .flagsWord unused) :
    p.writeField d fields f = .ofBytes (Wire.uint32 (d.layout.flagsWord fields f.name)) := by
  simp only [writeField, h]

theorem writeField_bit (h : f.kind = .trueBit) : p.writeField d fields f = .empty := by
  simp only [writeField, h]

theorem writeField_value (h : (∃ size, f.kind = .fixed size) ∨ f.kind = .dynamic) :
    p.writeField d fields f =
      match fields.get? f.name with
      | some v => p.writeTyped (d.site f) f.valueType v
      | none => if f.flag?.isSome then .empty else .failed (.missingField d.name f.name) := by
  rcases h with ⟨size, h⟩ | h <;> simp only [writeField, h]

def isThere (words : List (String × UInt32)) (f : FieldPlan) : Bool :=
  match f.flag? with
  | some flag => isSet words flag
  | none => true

variable {read : FieldPlan → Decoding Value} {words : List (String × UInt32)}
  {rest : List FieldPlan}

theorem readFields_word {unused : Bool} (h : f.kind = .flagsWord unused) :
    readFields read words fields (f :: rest) = (do
      let word ← Decoding.wire Wire.Read.uint32
      readFields read ((f.name, word) :: words) fields rest) := by
  rw [readFields, h]

theorem readFields_bit (h : f.kind = .trueBit) :
    readFields read words fields (f :: rest) =
      readFields read words (fields.set f.name (.bool (isThere words f))) rest := by
  rw [readFields, h]
  rfl

theorem readFields_value (h : (∃ size, f.kind = .fixed size) ∨ f.kind = .dynamic) :
    readFields read words fields (f :: rest) =
      if isThere words f then (do
        let value ← read f
        readFields read words (fields.set f.name value) rest)
      else readFields read words fields rest := by
  rcases h with ⟨size, h⟩ | h
  · rw [readFields, h]
    rfl
  · rw [readFields, h]
    rfl

end PlanSet

end TypeLang
