import TypeLang.Proofs.Plan.Modular

/-!
# References in a larger plan set

Schemas with other prefixes are put behind those of a plan set. Whatever a reference of the smaller
plan set stands for, it stands for in the larger one, at a position that is the same but among other
types and in another table. Only an identifier that was unknown may have become known. `Extends`
collects what this means for each kind of reference, and `extends_of_compile` proves it.
-/

namespace TypeLang

def Kept {α : Type} (first second : Except CodecError α) : Prop :=
  (∀ id, first ≠ .error (.unknownId id)) → second = first

namespace Kept

variable {α β : Type} {first second : Except CodecError α}

theorem refl (outcome : Except CodecError α) : Kept outcome outcome :=
  fun _ => rfl

theorem of_eq (h : second = first) : Kept first second :=
  fun _ => h

theorem bind {next next' : α → Except CodecError β} (h : Kept first second)
    (hnext : ∀ x, first = .ok x → Kept (next x) (next' x)) :
    Kept (first >>= next) (second >>= next') := by
  intro hknown
  have hfirst : ∀ id, first ≠ .error (.unknownId id) := by
    rintro id rfl
    exact hknown id rfl
  rw [h hfirst]
  cases first with
  | error e => rfl
  | ok x => exact hnext x rfl hknown

theorem eq_or (h : Kept first second) :
    second = first ∨ ∃ id, first = .error (.unknownId id) := by
  by_cases hknown : ∀ id, first ≠ .error (.unknownId id)
  · exact .inl (h hknown)
  · simp only [ne_eq, not_forall, not_not] at hknown
    exact .inr hknown

end Kept

namespace PlanSet

variable {schemas front back : List Schema} {capabilities : Capabilities} {p q r : PlanSet}
  {d : DeclarationPlan} {id : UInt32}

/-! ## Dispatching -/

theorem dispatched_eq_ok_iff (hp : compile schemas capabilities = .ok p) :
    p.dispatched id = .ok d ↔ d ∈ p.declarations ∧ d.id = id ∧ d.role ≠ .builtin := by
  have hdescribes := dispatch_describes hp
  have hfree := collisionFree hp
  unfold dispatched
  constructor
  · intro h
    split at h
    · rename_i hget
      obtain ⟨found, hfound, hid, hrole, -⟩ := (hdescribes.get?_eq_declaration_iff hfree).mp hget
      rw [hfound] at h
      cases h
      exact ⟨List.mem_of_getElem? hfound, hid, hrole⟩
    · cases h
  · rintro ⟨hd, hid, hrole⟩
    obtain ⟨index, hindex⟩ := List.mem_iff_getElem?.mp hd
    rw [(hdescribes.get?_eq_declaration_iff hfree).mpr ⟨d, hindex, hid, hrole, rfl, rfl⟩]
    simp only [hindex]

theorem dispatched_eq_error (h : ∀ d, p.dispatched id ≠ .ok d) :
    p.dispatched id = .error (.unknownId id) := by
  unfold dispatched at h ⊢
  split
  · rename_i hget
    rw [hget] at h
    split
    · rename_i d hd
      simp only [hd] at h
      exact absurd rfl (h d)
    · rfl
  · rfl

section

variable (hp : compile front capabilities = .ok p) (hq : compile schemas capabilities = .ok q)
  (hsubset : p.declarations ⊆ q.declarations)

include hp hq hsubset

theorem dispatched_of_subset (h : p.dispatched id = .ok d) : q.dispatched id = .ok d := by
  obtain ⟨hd, hid, hrole⟩ := (dispatched_eq_ok_iff hp).mp h
  exact (dispatched_eq_ok_iff hq).mpr ⟨hsubset hd, hid, hrole⟩

theorem kept_dispatched (id : UInt32) : Kept (p.dispatched id) (q.dispatched id) := by
  intro hknown
  by_cases hok : ∃ d, p.dispatched id = .ok d
  · obtain ⟨d, hd⟩ := hok
    rw [hd]
    exact dispatched_of_subset hp hq hsubset hd
  · exact absurd (dispatched_eq_error (not_exists.mp hok)) (hknown id)

/-- An identifier that is declared, possibly by a built-in constructor, keeps what it stands for. -/
theorem dispatched_eq_of_declared (hid : id ∈ p.declarations.map (·.id)) :
    q.dispatched id = p.dispatched id := by
  by_cases hok : ∃ d, p.dispatched id = .ok d
  · obtain ⟨d, hd⟩ := hok
    rw [hd]
    exact dispatched_of_subset hp hq hsubset hd
  · rw [dispatched_eq_error (not_exists.mp hok)]
    apply dispatched_eq_error
    intro d hd
    obtain ⟨hmem, hdid, hrole⟩ := (dispatched_eq_ok_iff hq).mp hd
    obtain ⟨e, he, heid⟩ := List.mem_map.mp hid
    obtain rfl := eq_of_id_eq hq hmem (hsubset he) (hdid.trans heid.symm)
    exact hok ⟨d, (dispatched_eq_ok_iff hp).mpr ⟨he, hdid, hrole⟩⟩

end

/-! ## Prefixes -/

theorem exists_schema_of_declaration (hp : compile schemas capabilities = .ok p)
    (hd : d ∈ p.declarations) : ∃ s ∈ schemas, s.config.namespacePrefix = d.schemaPrefix := by
  obtain ⟨table, types, -, hplanned, -⟩ := exists_planned hp
  obtain ⟨⟨s, decl⟩, hmem, hplan⟩ := exists_mem_of_forall₂ (mapM_eq_ok.mp hplanned.plans) hd
  obtain ⟨hs, -⟩ := Schema.mem_listing.mp hmem
  exact ⟨s, hs, (DeclarationPlan.ofDeclaration_eq_ok hplan).2.2.2.2.symm⟩

theorem exists_schema_of_type {t : TypePlan} (hp : compile schemas capabilities = .ok p)
    (ht : t ∈ p.types) : ∃ s ∈ schemas, s.config.namespacePrefix = t.key.schemaPrefix := by
  obtain ⟨table, types, -, hplanned, htypes, -⟩ := exists_planned hp
  rw [htypes] at ht
  obtain ⟨represented, hmem, rfl⟩ := List.mem_map.mp ht
  exact RepresentedTypes.exists_schema hplanned.represented hmem

theorem declared_of_singleton {t : TypePlan} (hp : compile schemas capabilities = .ok p)
    (ht : t ∈ p.types) (hid : t.representation = .singleton id) :
    id ∈ p.declarations.map (·.id) := by
  obtain ⟨table, types, -, hplanned, htypes, -⟩ := exists_planned hp
  rw [htypes] at ht
  obtain ⟨⟨g, r⟩, hmem, rfl⟩ := List.mem_map.mp ht
  obtain rfl : r = .singleton id := hid
  obtain ⟨g', hg, rfl, hr⟩ :=
    exists_mem_of_forall₂ (RepresentedTypes.ofGroups_eq_ok hplanned.represented) hmem
  rw [Schema.map_id_of_planAll hplanned.plans]
  obtain ⟨decl, hdecl, heq⟩ | ⟨-, -, members, heq, -⟩ | ⟨-, -, fields, members, heq, -⟩ :=
    Representation.ofConstructors_eq_ok hr
  · cases heq
    exact TypeGroup.mem_declaredIds hg (by rw [hdecl]; exact List.mem_cons_self)
  · cases heq
  · cases heq

def Covers (p : PlanSet) (schemaPrefix : String) : Prop :=
  ∃ d ∈ p.declarations, d.schemaPrefix = schemaPrefix

theorem covers_site (hd : d ∈ p.declarations) (f : FieldPlan) : p.Covers (d.site f).schemaPrefix :=
  ⟨d, hd, rfl⟩

/-! ## All references -/

structure Extends (p q : PlanSet) : Prop where
  length : p.declarations.length ≤ q.declarations.length
  dispatched : ∀ id, Kept (p.dispatched id) (q.dispatched id)
  typed : ∀ (site : Site) (name : QualifiedName) id, p.Covers site.schemaPrefix →
    Kept (p.typed site name id) (q.typed site name id)
  bare : ∀ schemaPrefix (name : QualifiedName), p.Covers schemaPrefix →
    q.bare schemaPrefix name = p.bare schemaPrefix name

section

variable (happart : Schema.Apart front back) (hp : compile front capabilities = .ok p)
  (hr : compile back capabilities = .ok r)
  (happend : q.IsAppend p r) {schemaPrefix : String} (hcovers : p.Covers schemaPrefix)

include happart hp hr happend hcovers

theorem type?_eq_of_covers {key : TypeKey} (hkey : key.schemaPrefix = schemaPrefix) :
    q.type? key = p.type? key := by
  have hnone : r.types.find? (·.key == key) = none := by
    rw [List.find?_eq_none]
    intro t ht hsame
    obtain rfl := eq_of_beq hsame
    obtain ⟨d, hd, hplace⟩ := hcovers
    obtain ⟨s, hs, hfront⟩ := exists_schema_of_declaration hp hd
    obtain ⟨other, hother, hback⟩ := exists_schema_of_type hr ht
    exact happart s hs other hother (by rw [hfront, hplace, hback, hkey])
  rw [type?, happend.types, List.find?_append, hnone, Option.or_none, type?]

theorem constructor?_eq_of_covers (fullName : String) :
    q.constructor? schemaPrefix fullName = p.constructor? schemaPrefix fullName := by
  have hnone : (r.declarations.reverse.find? fun d => d.category = .constructor &&
      d.schemaPrefix == schemaPrefix && d.name == fullName) = none := by
    rw [List.find?_eq_none]
    intro e he hmatch
    simp only [Bool.and_eq_true, beq_iff_eq] at hmatch
    obtain ⟨d, hd, hplace⟩ := hcovers
    obtain ⟨s, hs, hfront⟩ := exists_schema_of_declaration hp hd
    obtain ⟨other, hother, hback⟩ := exists_schema_of_declaration hr (List.mem_reverse.mp he)
    exact happart s hs other hother (by rw [hfront, hplace, hback, hmatch.1.2])
  rw [constructor?, happend.declarations, List.reverse_append, List.find?_append, hnone,
    Option.none_or, constructor?]

end

theorem extends_of_compile (happart : Schema.Apart front back)
    (hp : compile front capabilities = .ok p)
    (hq : compile (front ++ back) capabilities = .ok q) : p.Extends q := by
  obtain ⟨-, p', r, hp', hr⟩ := compile_parts happart hq
  obtain rfl := Except.ok.inj (hp.symm.trans hp')
  have happend := isAppend_of_compile happart hq hp hr
  have hsubset : p.declarations ⊆ q.declarations := by
    rw [happend.declarations]
    exact List.subset_append_left _ _
  refine ⟨?_, kept_dispatched hp hq hsubset, ?_, ?_⟩
  · rw [happend.declarations, List.length_append]
    exact Nat.le_add_right _ _
  · intro site name id hcovers
    have htype : q.type? (TypeKey.ofName site.schemaPrefix name) =
        p.type? (TypeKey.ofName site.schemaPrefix name) :=
      type?_eq_of_covers happart hp hr happend hcovers rfl
    refine (kept_dispatched hp hq hsubset id).bind fun d _ => ?_
    simp only [htype]
    exact .refl _
  · intro schemaPrefix name hcovers
    have htype : q.type? (TypeKey.ofName schemaPrefix name) =
        p.type? (TypeKey.ofName schemaPrefix name) :=
      type?_eq_of_covers happart hp hr happend hcovers rfl
    have hsole : q.soleConstructor? (TypeKey.ofName schemaPrefix name) =
        p.soleConstructor? (TypeKey.ofName schemaPrefix name) := by
      unfold soleConstructor?
      rw [htype]
      split
      · rename_i hfound
        have hmem := List.mem_of_find?_eq_some hfound
        rw [dispatched_eq_of_declared hp hq hsubset (declared_of_singleton hp hmem rfl)]
      · rfl
    unfold bare
    rw [hsole, constructor?_eq_of_covers happart hp hr happend hcovers]

end PlanSet

end TypeLang
