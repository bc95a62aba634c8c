import TypeLang.Proofs.Plan.Modular

/-!
# The schema of a type

Schemas with one prefix share their types, but a type has one owner: it bears the name of a schema,
and the default supertype of that schema stands in front of its other supertypes. The owner is the
first schema with the prefix. It need not declare any constructor of the type
(`not_belongsTo_declaring`); `declaring_iff` says exactly when the type can be found in a schema
with the name and the supertype that it bears. It can if no other schema has the prefix.
-/

namespace TypeLang

def Schema.Declares (s : Schema) (t : TypePlan) : Prop :=
  ∃ d ∈ s.constructors, TypeKey.ofResult? s.config.namespacePrefix d.result = some t.key ∧
    d.id ∈ t.representation.ids

instance (s : Schema) (t : TypePlan) : Decidable (s.Declares t) :=
  inferInstanceAs (Decidable (∃ d ∈ s.constructors, _ ∧ _))

theorem Schema.Declares.place_eq {s : Schema} {t : TypePlan} (h : s.Declares t) :
    s.config.namespacePrefix = t.key.schemaPrefix := by
  obtain ⟨d, -, hkey, -⟩ := h
  exact (TypeGroup.schemaPrefix_of_ofResult? hkey).symm

namespace TypePlan

variable {schemas : List Schema} {capabilities : Capabilities} {p : PlanSet} {t : TypePlan}

structure BelongsTo (t : TypePlan) (s : Schema) : Prop where
  schema : t.schema = s.config.name
  supertype : t.supertypes.head? = some s.config.defaultSupertype

theorem BelongsTo.iff_of_owner {owner s : Schema} (h : t.BelongsTo owner) :
    t.BelongsTo s ↔ s.config.name = owner.config.name ∧
      s.config.defaultSupertype = owner.config.defaultSupertype := by
  constructor
  · intro hs
    have hname : owner.config.name = s.config.name := h.schema.symm.trans hs.schema
    have hsupertype := h.supertype.symm.trans hs.supertype
    exact ⟨hname.symm, (Option.some.inj hsupertype).symm⟩
  · rintro ⟨hname, hsupertype⟩
    exact ⟨hname ▸ h.schema, hsupertype ▸ h.supertype⟩

theorem exists_declaring (hp : compile schemas capabilities = .ok p) (ht : t ∈ p.types) :
    ∃ s ∈ schemas, s.Declares t := by
  obtain ⟨table, types, -, htypes, -, -, hplans, -⟩ := compile_eq_ok hp
  rw [hplans] at ht
  obtain ⟨⟨g, r⟩, hmem, rfl⟩ := List.mem_map.mp ht
  obtain ⟨_, hg, rfl, hr⟩ :=
    exists_mem_of_forall₂ (RepresentedTypes.ofGroups_eq_ok htypes) hmem
  obtain ⟨d, hd⟩ := TypeGroup.exists_mem_constructors hg
  obtain ⟨s, hs, hdeclared, hkey⟩ := TypeGroup.exists_schema_of_mem hg hd
  have hid : d.id ∈ r.ids := by
    rw [Representation.ids_of_ofConstructors hr]
    exact List.mem_map_of_mem hd
  exact ⟨s, hs, d, hdeclared, hkey, hid⟩

theorem belongsTo_of_find? (hp : compile schemas capabilities = .ok p) (ht : t ∈ p.types)
    {owner : Schema}
    (howner : schemas.find? (·.config.namespacePrefix == t.key.schemaPrefix) = some owner) :
    t.BelongsTo owner := by
  obtain ⟨table, types, -, -, -, -, hplans, -⟩ := compile_eq_ok hp
  rw [hplans] at ht
  obtain ⟨represented, -, rfl⟩ := List.mem_map.mp ht
  change schemas.find? (·.config.namespacePrefix == represented.1.key.schemaPrefix) = _ at howner
  constructor
  · simp only [ofRepresented, howner, Option.map_some, Option.getD_some]
  · simp only [ofRepresented, howner, Option.map_some, Option.toList_some, List.singleton_append,
      List.eraseDups_cons, List.head?_cons]

/-- A type belongs to the first schema with its prefix. Some schema with the prefix declares the
type, the first one if no other has the prefix. A schema that declares the type and that it belongs
to exists if and only if the first one declares it, or a later one that has the same name and the
same default supertype as the first. -/
theorem declaring_iff (hp : compile schemas capabilities = .ok p) (ht : t ∈ p.types) :
    ∃ front owner back, schemas = front ++ owner :: back ∧
      (∀ s ∈ front, s.config.namespacePrefix ≠ t.key.schemaPrefix) ∧
      owner.config.namespacePrefix = t.key.schemaPrefix ∧ t.BelongsTo owner ∧
      (∃ s ∈ owner :: back, s.Declares t) ∧
      ((∀ s ∈ back, s.config.namespacePrefix ≠ t.key.schemaPrefix) → owner.Declares t) ∧
      ((∃ s ∈ schemas, s.Declares t ∧ t.BelongsTo s) ↔
        owner.Declares t ∨ ∃ s ∈ back, s.Declares t ∧ s.config.name = owner.config.name ∧
          s.config.defaultSupertype = owner.config.defaultSupertype) := by
  obtain ⟨s, hs, hdeclares⟩ := exists_declaring hp ht
  have hsome : (schemas.find? (·.config.namespacePrefix == t.key.schemaPrefix)).isSome :=
    List.find?_isSome.mpr ⟨s, hs, by simpa using hdeclares.place_eq⟩
  obtain ⟨owner, howner⟩ := Option.isSome_iff_exists.mp hsome
  have hbelongs := belongsTo_of_find? hp ht howner
  obtain ⟨hplace, front, back, rfl, hfront⟩ := List.find?_eq_some_iff_append.mp howner
  have hfront' : ∀ s ∈ front, s.config.namespacePrefix ≠ t.key.schemaPrefix := by
    simpa using hfront
  have hbehind : ∀ s ∈ front ++ owner :: back, s.Declares t → s ∈ owner :: back := by
    intro s hs hdeclares
    rcases List.mem_append.mp hs with hs | hs
    · exact absurd hdeclares.place_eq (hfront' s hs)
    · exact hs
  have hdeclaring := hbehind s hs hdeclares
  refine ⟨front, owner, back, rfl, hfront', by simpa using hplace, hbelongs,
    ⟨s, hdeclaring, hdeclares⟩, fun hback => ?_, ?_⟩
  · rcases List.mem_cons.mp hdeclaring with rfl | hlater
    · exact hdeclares
    · exact absurd hdeclares.place_eq (hback s hlater)
  constructor
  · rintro ⟨s, hs, hdeclares, hown⟩
    rcases List.mem_cons.mp (hbehind s hs hdeclares) with rfl | hlater
    · exact .inl hdeclares
    · exact .inr ⟨s, hlater, hdeclares, hbelongs.iff_of_owner.mp hown⟩
  · rintro (hdeclares | ⟨s, hs, hdeclares, hsame⟩)
    · exact ⟨owner, by simp, hdeclares, hbelongs⟩
    · exact ⟨s, by simp [hs], hdeclares, hbelongs.iff_of_owner.mpr hsame⟩

end TypePlan

/-! ## A type of a schema that is not the first -/

def Schema.sole (name supertype constructor type : String) (id : UInt32) : Schema where
  config := { name, defaultSupertype := supertype }
  layer := none
  constructors := [⟨.constructor, id, ⟨[], constructor⟩, [], .named ⟨[], type⟩ false⟩]
  methods := []

def Schema.workshop : List Schema :=
  [sole "tools" "Tool" "hammer" "Hammer" 1, sole "paints" "Paint" "colorRed" "Color" 2]

def PlanSet.workshop : PlanSet :=
  (compile Schema.workshop {}).toOption.getD default

theorem compile_workshop : compile Schema.workshop {} = .ok .workshop := by
  rfl

namespace TypePlan

/-- Hammers are declared by the first schema and belong to it. -/
theorem declaring_iff_hammer :
    let hammer := PlanSet.workshop.types.getD 0 default
    hammer ∈ PlanSet.workshop.types ∧ hammer.schema = "tools" ∧
      ∃ s ∈ Schema.workshop, s.Declares hammer ∧ hammer.BelongsTo s := by
  have hmem : PlanSet.workshop.types.getD 0 default ∈ PlanSet.workshop.types := by
    decide
  obtain ⟨front, owner, back, hsplit, hfront, -, -, -, -, hiff⟩ :=
    declaring_iff compile_workshop hmem
  have hnil : front = [] := by
    cases front with
    | nil => rfl
    | cons s front =>
        obtain ⟨rfl, -⟩ := List.cons.inj hsplit
        exact absurd rfl (hfront _ List.mem_cons_self)
  rw [hnil] at hsplit
  obtain ⟨rfl, rfl⟩ := List.cons.inj hsplit
  exact ⟨hmem, by decide, hiff.mpr (.inl (by decide))⟩

/-- Colors are declared by the second schema alone, and belong to the first. -/
theorem not_belongsTo_declaring :
    let color := PlanSet.workshop.types.getD 1 default
    compile Schema.workshop {} = .ok .workshop ∧ color ∈ PlanSet.workshop.types ∧
      color.key = ⟨"", [], "Color"⟩ ∧ color.schema = "tools" ∧ color.supertypes = ["Tool"] ∧
      ¬∃ s ∈ Schema.workshop, s.Declares color ∧ color.BelongsTo s := by
  refine ⟨compile_workshop, by decide, by decide, by decide, by decide, ?_⟩
  rintro ⟨s, hs, hdeclares, hbelongs⟩
  have hdeclaring : ∀ s ∈ Schema.workshop,
      s.Declares (PlanSet.workshop.types.getD 1 default) → s.config.name = "paints" := by
    decide
  have hpaints := hdeclaring s hs hdeclares
  have htools : "tools" = s.config.name := hbelongs.schema
  rw [hpaints] at htools
  exact absurd htools (by decide)

end TypePlan

end TypeLang
