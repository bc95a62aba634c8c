import TypeLang.Proofs.Plan.Modular

/-!
# Common fields

The common fields of an interface are found by comparing its constructors before any of them is laid
out. `exists_field_of_commonField` is what they come to in the layouts: each member has the field,
of the same type, and behind a flag only if the common field is optional or a `true`.
-/

namespace TypeLang

/-- What has this name and this type is the common field in one of the constructors. Only an
optional field and a `true` may have a flag. -/
structure CommonField.Matches (f : CommonField) (label : String) (type : TypeExpr) : Prop where
  name : label = f.name
  erased : type.erased = f.type
  certain : f.optional = false → type.flag? = none ∨ f.type = .primitive .trueLiteral

namespace Representation

variable {q : Parameter} {siblings : List Declaration} {d : Declaration}

theorem exists_of_siblingFields? {others : List Parameter}
    (h : siblingFields? q siblings = some others) (hd : d ∈ siblings) :
    ∃ r ∈ others, r ∈ d.params ∧ r.sameField q := by
  induction siblings generalizing others with
  | nil => cases hd
  | cons e siblings ih =>
      rw [siblingFields?, List.mapM_cons, Option.bind_eq_bind, Option.bind_eq_some_iff] at h
      obtain ⟨r, hr, h⟩ := h
      obtain ⟨rest, hrest, h⟩ := Option.bind_eq_some_iff.mp h
      cases h
      rcases List.mem_cons.mp hd with rfl | hd
      · have hsame := List.find?_some hr
        exact ⟨r, List.mem_cons_self, List.mem_of_find?_eq_some hr, hsame⟩
      · obtain ⟨other, hother, hparam⟩ := ih hrest hd
        exact ⟨other, List.mem_cons_of_mem _ hother, hparam⟩

/-- The parameter that a common field is made from is no flags word, and every sibling has another
one for it. -/
theorem matches_of_commonField? {f : CommonField} (h : commonField? q siblings = some f) :
    q.type ≠ .primitive .flags ∧ f.Matches q.name q.type ∧
      ∀ d ∈ siblings, ∃ r ∈ d.params, f.Matches r.name r.type := by
  unfold commonField? at h
  split at h
  · cases h
  · rename_i hword
    obtain ⟨others, hothers, rfl⟩ := Option.map_eq_some_iff.mp h
    have hcertain {r : Parameter} (hr : r ∈ q :: others)
        (hoptional : ((q :: others).any (·.type.flag?.isSome) && !q.type.isTrueLiteral) = false) :
        r.type.flag? = none ∨ q.type.erased = .primitive .trueLiteral := by
      rcases Bool.and_eq_false_iff.mp hoptional with hnone | htrue
      · exact .inl (by simpa using List.any_eq_false.mp hnone r hr)
      · exact .inr (by simpa [TypeExpr.isTrueLiteral] using htrue)
    refine ⟨by simpa [TypeExpr.isFlagsWord] using hword,
      ⟨rfl, rfl, hcertain List.mem_cons_self⟩, fun d hd => ?_⟩
    obtain ⟨r, hr, hparam, hsame⟩ := exists_of_siblingFields? hothers hd
    simp only [Parameter.sameField, Bool.and_eq_true, beq_iff_eq] at hsame
    exact ⟨r, hparam, hsame.1, hsame.2, hcertain (List.mem_cons_of_mem _ hr)⟩

/-- Every constructor of an interface has a parameter for a common field. Nothing of the type of
such a field takes a flag or is a flags word if that is so in the constructors. -/
theorem exists_param_of_mem {key : TypeKey} {ds : List Declaration} {fields : List CommonField}
    {members : List InterfaceMember} (h : ofConstructors key ds = .ok (.interface fields members))
    {f : CommonField} (hf : f ∈ fields) (htyped : ∀ d ∈ ds, d.WellTyped) :
    f.type.Plain ∧ ∀ d ∈ ds, ∃ q ∈ d.params, f.Matches q.name q.type := by
  match ds, h with
  | first :: second :: rest, h =>
      change (if (first :: second :: rest).all (·.params.isEmpty) then _ else _) = _ at h
      split at h
      · obtain ⟨_, hr, -⟩ := ofEnum_eq_ok h
        cases hr
      · cases h
        obtain ⟨q, hq, hcommon⟩ := List.mem_filterMap.mp hf
        obtain ⟨hword, hfirst, hsiblings⟩ := matches_of_commonField? hcommon
        have hplain := (htyped first List.mem_cons_self q hq).resolve_left hword
        rw [hfirst.erased] at hplain
        exact ⟨hplain, List.forall_mem_cons.mpr ⟨⟨q, hq, hfirst⟩, hsiblings⟩⟩

end Representation

theorem Schema.schemaPrefix_of_typeKeyOf? {s : Schema} {d : Declaration} {key : TypeKey}
    (h : s.typeKeyOf? d = some key) : key.schemaPrefix = s.config.namespacePrefix := by
  unfold typeKeyOf? at h
  split at h
  · cases h
  · exact TypeGroup.schemaPrefix_of_ofResult? h

namespace PlanSet

open Schema

variable {schemas : List Schema} {capabilities : Capabilities} {p : PlanSet} {t : TypePlan}
  {d : DeclarationPlan}

theorem wellTyped_of_mem_constructorsOf {key : TypeKey} (hread : ∀ s ∈ schemas, s.IsRead)
    {decl : Declaration} (hdecl : decl ∈ constructorsOf schemas key) : decl.WellTyped := by
  obtain ⟨⟨s, _⟩, hmem, rfl⟩ := List.mem_map.mp hdecl
  obtain ⟨hs, hdecl⟩ := mem_listing.mp (List.mem_of_mem_filter hmem)
  exact (hread s hs).wellTyped hdecl

section

variable (hp : compile schemas capabilities = .ok p) (ht : t ∈ p.types)

include hp ht

/-- What has an identifier of a type is planned from a constructor of the type, and its names are
looked up where the type is declared. -/
theorem exists_constructor (hs : ∀ s ∈ schemas, s.Filed) (hd : d ∈ p.declarations)
    (hid : d.id ∈ t.representation.ids) :
    ∃ decl ∈ constructorsOf schemas t.key,
      Layout.ofDeclaration decl = .ok d.layout ∧ d.schemaPrefix = t.key.schemaPrefix := by
  rw [Representation.ids_of_ofConstructors (ofConstructors_of_mem hp hs ht)] at hid
  obtain ⟨decl, hdecl, hid⟩ := List.mem_map.mp hid
  obtain ⟨⟨s, _⟩, hmem, rfl⟩ := List.mem_map.mp hdecl
  obtain ⟨hmem, hkey⟩ := List.mem_filter.mp hmem
  obtain ⟨table, types, -, -, hdeclarations, -⟩ := compile_eq_ok hp
  obtain ⟨e, he, hplan⟩ := exists_mem_of_forall₂ (mapM_eq_ok.mp hdeclarations).flip hmem
  obtain ⟨hlayout, hsame, -, -, hscope⟩ := DeclarationPlan.ofDeclaration_eq_ok hplan
  obtain rfl := eq_of_id_eq hp he hd (hsame.trans hid)
  exact ⟨_, hdecl, hlayout, hscope.trans (schemaPrefix_of_typeKeyOf? (by simpa using hkey)).symm⟩

/-- Every member of an interface has a field for each common field, and looks its type up where the
interface does. -/
theorem exists_field_of_commonField {fields : List CommonField} {members : List InterfaceMember}
    (hr : t.representation = .interface fields members) {f : CommonField} (hf : f ∈ fields)
    (hread : ∀ s ∈ schemas, s.IsRead) (hd : d ∈ p.declarations)
    (hid : d.id ∈ t.representation.ids) :
    f.type.Plain ∧ ∃ g ∈ d.layout.fields, f.Matches g.name g.type ∧
      d.site g = ⟨t.key.schemaPrefix, f.name⟩ := by
  have hs : ∀ s ∈ schemas, s.Filed := fun s hs => (hread s hs).filed
  obtain ⟨decl, hdecl, hlayout, hscope⟩ := exists_constructor hp ht hs hd hid
  have hconstructors := ofConstructors_of_mem hp hs ht
  rw [hr] at hconstructors
  obtain ⟨hplain, hparams⟩ := Representation.exists_param_of_mem hconstructors hf
    fun _ => wellTyped_of_mem_constructorsOf hread
  obtain ⟨q, hq, hmatches⟩ := hparams decl hdecl
  refine ⟨hplain, Layout.fieldPlan (Layout.presenceOf decl.params) q, ?_, hmatches, ?_⟩
  · rw [(Layout.ofDeclaration_eq_ok hlayout).2.2.1]
    exact List.mem_map_of_mem hq
  · rw [DeclarationPlan.site, hscope, ← hmatches.name]
    rfl

end

end PlanSet

end TypeLang
