import TypeLang.Proofs.Plan.Groups
import TypeLang.Proofs.Plan.Presence

/-!
# Types and their constructors

Which type a declaration belongs to is decided three times over: when constructors are grouped, when
a group gets its representation, and when the declaration gets its role. Here all three are traced
back to `Schema.typeKeyOf?`. Where every declaration stands in the list of its category, the types
of a compiled plan set therefore partition its constructors, and a role can be read off the
constructors of the type (`Partitioned`). What holds wherever they stand is told by `Keyed`.
-/

namespace TypeLang

/-! ## Representing -/

namespace Representation

variable {key : TypeKey} {ds : List Declaration} {r : Representation} {id : UInt32}

theorem map_id_of_foldlM_addMember? {start : Nat} {members all : List EnumMember}
    (h : ds.foldlM (addMember? start) members = some all) :
    all.map (·.id) = members.map (·.id) ++ ds.map (·.id) := by
  induction ds generalizing members with
  | nil =>
      cases h
      rw [List.map_nil, List.append_nil]
  | cons d ds ih =>
      rw [List.foldlM_cons, Option.bind_eq_bind, Option.bind_eq_some_iff] at h
      obtain ⟨next, hnext, hrest⟩ := h
      rw [addMember?, Option.bind_eq_bind, Option.bind_eq_some_iff] at hnext
      obtain ⟨⟨front, label⟩, -, hnext⟩ := hnext
      simp only at hnext
      split at hnext
      · cases hnext
      · cases hnext
        rw [ih hrest, List.map_append, List.append_assoc]
        rfl

theorem ofEnum_eq_ok (h : ofEnum key ds = .ok r) :
    ∃ members, r = .enum members ∧ members.map (·.id) = ds.map (·.id) := by
  unfold ofEnum at h
  simp only at h
  split at h
  · rename_i members hmembers
    cases h
    exact ⟨members, rfl, map_id_of_foldlM_addMember? hmembers⟩
  · cases h

theorem ofConstructors_eq_ok (h : ofConstructors key ds = .ok r) :
    (∃ d, ds = [d] ∧ r = .singleton d.id) ∨
    (2 ≤ ds.length ∧ (∀ d ∈ ds, d.params = []) ∧
      ∃ members, r = .enum members ∧ members.map (·.id) = ds.map (·.id)) ∨
    (2 ≤ ds.length ∧ (∃ d ∈ ds, d.params ≠ []) ∧
      ∃ fields members, r = .interface fields members ∧ members.map (·.id) = ds.map (·.id)) := by
  match ds, h with
  | [only], h =>
      cases h
      exact .inl ⟨only, rfl, rfl⟩
  | first :: second :: rest, h =>
      have hmany : 2 ≤ (first :: second :: rest).length := by simp
      change (if (first :: second :: rest).all (·.params.isEmpty) then _ else _) = _ at h
      split at h
      · rename_i hall
        have hempty : ∀ d ∈ first :: second :: rest, d.params = [] := by
          simpa using hall
        exact .inr (.inl ⟨hmany, hempty, ofEnum_eq_ok h⟩)
      · rename_i hall
        have hsome : ∃ d ∈ first :: second :: rest, d.params ≠ [] := by
          by_contra hnone
          push Not at hnone
          exact hall (by simpa using hnone)
        cases h
        exact .inr (.inr ⟨hmany, hsome, _, _, rfl, by rw [List.map_map]; rfl⟩)

theorem ids_of_ofConstructors (h : ofConstructors key ds = .ok r) : r.ids = ds.map (·.id) := by
  obtain ⟨d, rfl, rfl⟩ | ⟨-, -, members, rfl, hids⟩ | ⟨-, -, fields, members, rfl, hids⟩ :=
    ofConstructors_eq_ok h
  · rfl
  · exact hids
  · exact hids

theorem exists_enumMember? {members : List EnumMember} (h : id ∈ members.map (·.id)) :
    ∃ m, (enum members).enumMember? id = some m ∧ m.id = id := by
  obtain ⟨m, hm, hid⟩ := List.mem_map.mp h
  have hfound : (members.find? (·.id == id)).isSome :=
    List.find?_isSome.mpr ⟨m, hm, by simpa using hid⟩
  obtain ⟨found, hfound⟩ := Option.isSome_iff_exists.mp hfound
  exact ⟨found, hfound, by simpa using List.find?_some hfound⟩

end Representation

theorem RepresentedTypes.ofGroups_eq_ok {groups : List TypeGroup} {types : RepresentedTypes}
    (h : ofGroups groups = .ok types) :
    List.Forall₂ (fun g t => t.1 = g ∧ Representation.ofConstructors g.key g.constructors = .ok t.2)
      groups types := by
  refine (mapM_eq_ok.mp h).imp fun g t ht => ?_
  obtain ⟨r, hr, ht⟩ := bind_eq_ok.mp ht
  cases ht
  exact ⟨rfl, hr⟩

/-! ## Classifying -/

/-- The type and the role of the declaration with an identifier. A method has no type, a constructor
of no type is built in, and the role of any other goes by the representation of its type. -/
inductive PlanSet.Assigns (p : PlanSet) (id : UInt32) : Category → Option TypeKey → Role → Prop
  | method : Assigns p id .method none .method
  | builtin : Assigns p id .constructor none .builtin
  | typed {key : TypeKey} {t : TypePlan} (type : p.type? key = some t) :
      Assigns p id .constructor (some key) (DeclarationPlan.roleIn t.representation id)

def PlanSet.knownKey? (p : PlanSet) (s : Schema) (decl : Declaration) : Option TypeKey :=
  (s.typeKeyOf? decl).filter fun key => (p.type? key).isSome

structure PlanSet.Shows (p : PlanSet) (d : DeclarationPlan) (s : Schema) (decl : Declaration) :
    Prop where
  id : d.id = decl.id
  category : d.category = decl.category
  typeKey : d.typeKey = p.knownKey? s decl
  fields : d.layout.fields = [] ↔ decl.params = []

theorem Layout.fields_eq_nil_iff {decl : Declaration} {l : Layout}
    (h : ofDeclaration decl = .ok l) : l.fields = [] ↔ decl.params = [] := by
  obtain ⟨-, -, hfields, -⟩ := Layout.ofDeclaration_eq_ok h
  rw [hfields, List.map_eq_nil_iff]

namespace PlanSet

open Schema

variable {schemas : List Schema} {capabilities : Capabilities} {p : PlanSet}
  {d : DeclarationPlan} {t : TypePlan} {key : TypeKey}

namespace Assigns

variable {id : UInt32} {category : Category} {key? : Option TypeKey} {role : Role}

theorem roleIn_ne (r : Representation) (id : UInt32) :
    DeclarationPlan.roleIn r id ≠ .builtin ∧ DeclarationPlan.roleIn r id ≠ .method := by
  unfold DeclarationPlan.roleIn
  split
  · decide
  · split <;> simp
  · decide

theorem isSome_iff (h : p.Assigns id category key? role) :
    key?.isSome ↔ category = .constructor ∧ role ≠ .builtin := by
  cases h with
  | method => decide
  | builtin => decide
  | typed type => simpa using (roleIn_ne _ id).1

theorem method_iff (h : p.Assigns id category key? role) : category = .method ↔ role = .method := by
  cases h with
  | method => decide
  | builtin => decide
  | typed type => simpa using (roleIn_ne _ id).2

theorem exists_type? (h : p.Assigns id category (some key) role) : ∃ t, p.type? key = some t := by
  cases h with
  | typed type => exact ⟨_, type⟩

theorem role_eq (h : p.Assigns id category (some key) role) (ht : p.type? key = some t) :
    role = DeclarationPlan.roleIn t.representation id := by
  cases h with
  | typed type =>
      rw [ht] at type
      cases type
      rfl

end Assigns

/-- A declaration is classified by the type that it constructs, if the plan set has it. -/
theorem classify_eq {types : RepresentedTypes} {table : CapabilityTable} (s : Schema)
    (decl : Declaration) (htypes : p.types = types.map (TypePlan.ofRepresented schemas table)) :
    ∃ role name,
      DeclarationPlan.classify types s.config.namespacePrefix decl =
        (p.knownKey? s decl, role, name) ∧
      p.Assigns decl.id decl.category (p.knownKey? s decl) role := by
  unfold DeclarationPlan.classify knownKey?
  cases hcategory : decl.category with
  | method =>
      have hnone : s.typeKeyOf? decl = none := by rw [typeKeyOf?, hcategory]
      rw [hnone]
      exact ⟨_, _, rfl, .method⟩
  | constructor =>
      have hkey : s.typeKeyOf? decl = TypeKey.ofResult? s.config.namespacePrefix decl.result := by
        rw [typeKeyOf?, hcategory]
      rw [← hkey]
      cases hresult : s.typeKeyOf? decl with
      | none => exact ⟨_, _, rfl, .builtin⟩
      | some key =>
          have hlook : p.type? key =
              (RepresentedTypes.find? types key).map (TypePlan.ofRepresented schemas table) := by
            rw [type?, htypes, List.find?_map]
            rfl
          rw [Option.bind_some]
          cases hfind : RepresentedTypes.find? types key with
          | none =>
              rw [hfind] at hlook
              have hunknown : (some key).filter (fun key => (p.type? key).isSome) = none := by
                simp [hlook]
              rw [hunknown]
              exact ⟨_, _, rfl, .builtin⟩
          | some found =>
              obtain ⟨g, r⟩ := found
              rw [hfind] at hlook
              have hknown : (some key).filter (fun key => (p.type? key).isSome) = some key := by
                simp [hlook]
              obtain rfl : g.key = key := by simpa using List.find?_some hfind
              rw [hknown]
              exact ⟨_, _, rfl, .typed hlook⟩

def constructors (p : PlanSet) (key : TypeKey) : List DeclarationPlan :=
  p.declarations.filter (·.typeKey == some key)

section

variable (hp : compile schemas capabilities = .ok p)

include hp

/-- The types of a plan set are those of the groups, each represented by its constructors. -/
theorem types_groups :
    List.Forall₂ (fun g t => t.key = g.key ∧
      Representation.ofConstructors g.key g.constructors = .ok t.representation)
      (TypeGroup.ofSchemas schemas) p.types := by
  obtain ⟨table, types, -, htypes, -, -, hplans, -⟩ := compile_eq_ok hp
  rw [hplans, List.forall₂_map_right_iff]
  refine (RepresentedTypes.ofGroups_eq_ok htypes).imp ?_
  rintro _ ⟨g, r⟩ ⟨rfl, hr⟩
  exact ⟨rfl, hr⟩

theorem nodup_keys : (p.types.map (·.key)).Nodup := by
  have hkeys : p.types.map (·.key) = (TypeGroup.ofSchemas schemas).map (·.key) := by
    rw [← List.forall₂_eq_eq_eq, List.forall₂_map_left_iff, List.forall₂_map_right_iff]
    exact (types_groups hp).flip.imp fun t g h => h.1
  rw [hkeys]
  exact TypeGroup.nodup_keys schemas

theorem type?_eq_some_iff : p.type? key = some t ↔ t ∈ p.types ∧ t.key = key := by
  constructor
  · intro h
    exact ⟨List.mem_of_find?_eq_some h, by simpa using List.find?_some h⟩
  · rintro ⟨ht, rfl⟩
    exact Association.find?_eq_some_of_mem (nodup_keys hp) ht

theorem exists_group (ht : t ∈ p.types) :
    ∃ g ∈ TypeGroup.ofSchemas schemas, t.key = g.key ∧
      t.representation.ids = g.constructors.map (·.id) := by
  obtain ⟨g, hg, hkey, hr⟩ := exists_mem_of_forall₂ (types_groups hp) ht
  exact ⟨g, hg, hkey, Representation.ids_of_ofConstructors hr⟩

theorem declarations_forall₂ :
    List.Forall₂ (fun sd d => p.Shows d sd.1 sd.2 ∧ p.Assigns d.id d.category d.typeKey d.role)
      (listing schemas) p.declarations := by
  obtain ⟨table, types, -, -, hdeclarations, -, htypes, -⟩ := compile_eq_ok hp
  refine (mapM_eq_ok.mp hdeclarations).imp ?_
  rintro ⟨s, decl⟩ d hd
  obtain ⟨role, name, hclass, hrole⟩ := classify_eq s decl htypes
  simp only [DeclarationPlan.ofDeclaration, hclass] at hd
  obtain ⟨layout, hlayout, hd⟩ := bind_eq_ok.mp hd
  cases hd
  exact ⟨⟨rfl, rfl, rfl, Layout.fields_eq_nil_iff hlayout⟩, hrole⟩

theorem assigns (hd : d ∈ p.declarations) : p.Assigns d.id d.category d.typeKey d.role := by
  obtain ⟨_, -, -, h⟩ := exists_mem_of_forall₂ (declarations_forall₂ hp) hd
  exact h

theorem ids_declarations : p.declarations.map (·.id) = declaredIds schemas := by
  rw [declaredIds, ← List.forall₂_eq_eq_eq, List.forall₂_map_left_iff, List.forall₂_map_right_iff]
  exact (declarations_forall₂ hp).flip.imp fun d sd h => h.1.id

theorem nodup_ids (ht : t ∈ p.types) : t.representation.ids.Nodup := by
  obtain ⟨-, -, -, -, -, hdispatch, -⟩ := compile_eq_ok hp
  obtain ⟨g, hg, -, hids⟩ := exists_group hp ht
  have hdistinct := (DispatchTable.ofDeclarations_eq_ok hdispatch).2
  rw [ids_declarations hp] at hdistinct
  rw [hids]
  exact TypeGroup.nodup_ids hg hdistinct

/-- If all methods are methods, then a declaration is one of the constructors of its type. -/
theorem id_mem_ids (hmethods : ∀ s ∈ schemas, ∀ decl ∈ s.methods, decl.category = .method)
    (hd : d ∈ p.declarations) (hkey : d.typeKey = some key) (ht : p.type? key = some t) :
    d.id ∈ t.representation.ids := by
  obtain ⟨hmem, rfl⟩ := (type?_eq_some_iff hp).mp ht
  obtain ⟨g, hg, hgroup, hids⟩ := exists_group hp hmem
  obtain ⟨⟨s, decl⟩, hlisted, hshows, -⟩ := exists_mem_of_forall₂ (declarations_forall₂ hp) hd
  have hdecl : s.typeKeyOf? decl = some g.key := by
    rw [hshows.typeKey, knownKey?, Option.filter_eq_some_iff] at hkey
    rw [hkey.1, hgroup]
  rw [hids, hshows.id]
  exact List.mem_map_of_mem (TypeGroup.mem_constructors_of_typeKeyOf? hg hmethods hlisted hdecl)

end

section

variable (hp : compile schemas capabilities = .ok p) (hs : ∀ s ∈ schemas, s.Filed)

include hp hs

/-- The types of a plan set are those that are constructed, each represented by its constructors. -/
theorem types_forall₂ :
    List.Forall₂ (fun key t => t.key = key ∧
      Representation.ofConstructors key (constructorsOf schemas key) = .ok t.representation)
      (typeKeys schemas) p.types := by
  have hgroups := types_groups hp
  rwa [TypeGroup.ofSchemas_eq hs, List.forall₂_map_left_iff] at hgroups

theorem ofConstructors_of_mem (ht : t ∈ p.types) :
    Representation.ofConstructors t.key (constructorsOf schemas t.key) = .ok t.representation := by
  obtain ⟨key, -, rfl, hr⟩ := exists_mem_of_forall₂ (types_forall₂ hp hs) ht
  exact hr

theorem knownKey?_eq {s : Schema} {decl : Declaration} (hmem : (s, decl) ∈ listing schemas) :
    p.knownKey? s decl = s.typeKeyOf? decl := by
  cases hkey : s.typeKeyOf? decl with
  | none => rw [knownKey?, hkey, Option.filter_none]
  | some key =>
      have hin := mem_typeKeys hmem hkey
      obtain ⟨t, ht, rfl, -⟩ := exists_mem_of_forall₂ (types_forall₂ hp hs).flip hin
      have hfound : p.type? t.key = some t := (type?_eq_some_iff hp).mpr ⟨ht, rfl⟩
      simp [knownKey?, hkey, hfound]

/-! ## Constructors of a type -/

/-- The constructors of a type are the plans of those that are declared for it. -/
theorem constructors_forall₂ (key : TypeKey) :
    List.Forall₂ (fun decl d => d.id = decl.id ∧ (d.layout.fields = [] ↔ decl.params = []))
      (constructorsOf schemas key) (p.constructors key) := by
  rw [constructorsOf, List.forall₂_map_left_iff]
  have hshows := (List.forall₂_and_left _ _).mpr
    ⟨fun sd (hsd : sd ∈ listing schemas) => hsd, declarations_forall₂ hp⟩
  refine (List.rel_filter ?_ hshows).imp fun _ _ h => ⟨h.2.1.id, h.2.1.fields⟩
  rintro ⟨s, decl⟩ d ⟨hmem, h, -⟩
  simp only [h.typeKey, knownKey?_eq hp hs hmem]

theorem ids_eq (ht : t ∈ p.types) : t.representation.ids = (p.constructors t.key).map (·.id) := by
  rw [Representation.ids_of_ofConstructors (ofConstructors_of_mem hp hs ht),
    ← List.forall₂_eq_eq_eq, List.forall₂_map_left_iff, List.forall₂_map_right_iff]
  exact (constructors_forall₂ hp hs t.key).imp fun _ _ h => h.1.symm

end

/-! ## The partition -/

structure RoleFits (p : PlanSet) (t : TypePlan) (d : DeclarationPlan) : Prop where
  singleton : d.role = .singleton ↔ (p.constructors t.key).length = 1
  enumMember : (∃ label constant, d.role = .enumMember label constant) ↔
    2 ≤ (p.constructors t.key).length ∧ ∀ e ∈ p.constructors t.key, e.layout.fields = []
  /-- Label and constant are those of the member of the enum that has the identifier. -/
  entry : ∀ label constant, d.role = .enumMember label constant →
    ∃ m, t.representation.enumMember? d.id = some m ∧ m.id = d.id ∧ m.label = label ∧
      m.constant = constant
  interfaceMember : d.role = .interfaceMember ↔
    2 ≤ (p.constructors t.key).length ∧ ∃ e ∈ p.constructors t.key, e.layout.fields ≠ []

/-- The keys of types and declarations fit together. -/
structure Keyed (p : PlanSet) : Prop where
  keys : (p.types.map (·.key)).Nodup
  typed : ∀ d ∈ p.declarations, d.typeKey.isSome ↔ d.category = .constructor ∧ d.role ≠ .builtin
  known : ∀ d ∈ p.declarations, ∀ key, d.typeKey = some key → ∃ t ∈ p.types, t.key = key
  distinct : ∀ t ∈ p.types, t.representation.ids.Nodup
  method : ∀ d ∈ p.declarations, d.category = .method ↔ d.role = .method

/-- The types partition the constructors, and the roles tell how. -/
structure Partitioned (p : PlanSet) : Prop where
  ids : ∀ t ∈ p.types, t.representation.ids = (p.constructors t.key).map (·.id)
  role : ∀ d ∈ p.declarations, ∀ t ∈ p.types, d.typeKey = some t.key → p.RoleFits t d

section

variable (hp : compile schemas capabilities = .ok p) (hs : ∀ s ∈ schemas, s.Filed)

include hp hs

theorem representation_cases (ht : t ∈ p.types) :
    ((p.constructors t.key).length = 1 ∧ ∃ id, t.representation = .singleton id) ∨
    (2 ≤ (p.constructors t.key).length ∧ (∀ e ∈ p.constructors t.key, e.layout.fields = []) ∧
      ∃ members, t.representation = .enum members) ∨
    (2 ≤ (p.constructors t.key).length ∧ (∃ e ∈ p.constructors t.key, e.layout.fields ≠ []) ∧
      ∃ fields members, t.representation = .interface fields members) := by
  have hplans := constructors_forall₂ hp hs t.key
  rw [← hplans.length_eq]
  obtain ⟨d, hone, hr⟩ | ⟨hmany, hempty, members, hr, -⟩ |
      ⟨hmany, ⟨decl, hdecl, hparams⟩, fields, members, hr, -⟩ :=
    Representation.ofConstructors_eq_ok (ofConstructors_of_mem hp hs ht)
  · exact .inl ⟨by rw [hone, List.length_singleton], d.id, hr⟩
  · refine .inr (.inl ⟨hmany, fun e he => ?_, members, hr⟩)
    obtain ⟨decl, hdecl, -, hfields⟩ := exists_mem_of_forall₂ hplans he
    exact hfields.mpr (hempty decl hdecl)
  · refine .inr (.inr ⟨hmany, ?_, fields, members, hr⟩)
    obtain ⟨e, he, -, hfields⟩ := exists_mem_of_forall₂ hplans.flip hdecl
    exact ⟨e, he, fun hnil => hparams (hfields.mp hnil)⟩

theorem roleFits (hd : d ∈ p.declarations) (ht : t ∈ p.types) (hkey : d.typeKey = some t.key) :
    p.RoleFits t d := by
  have htype := (type?_eq_some_iff hp).mpr ⟨ht, rfl⟩
  have hassigns := assigns hp hd
  rw [hkey] at hassigns
  have hrole := hassigns.role_eq htype
  have hid := id_mem_ids hp (fun s hmem => (hs s hmem).methods) hd hkey htype
  obtain ⟨hone, id, hr⟩ | ⟨hmany, hempty, members, hr⟩ |
      ⟨hmany, ⟨e, he, hfields⟩, fields, members, hr⟩ :=
    representation_cases hp hs ht
  · rw [hr] at hrole
    constructor <;> simp [hrole, hone, DeclarationPlan.roleIn]
  · rw [hr] at hrole hid
    obtain ⟨m, hm, hmid⟩ := Representation.exists_enumMember? hid
    rw [DeclarationPlan.roleIn, hm] at hrole
    constructor
    · simp only [hrole, reduceCtorEq, false_iff]
      omega
    · exact ⟨fun _ => ⟨hmany, hempty⟩, fun _ => ⟨_, _, hrole⟩⟩
    · intro label constant hlabels
      rw [hrole] at hlabels
      cases hlabels
      exact ⟨m, by rw [hr, hm], hmid, rfl, rfl⟩
    · simp only [hrole, reduceCtorEq, false_iff]
      rintro ⟨-, e, he, hfields⟩
      exact hfields (hempty e he)
  · rw [hr] at hrole
    replace hrole : d.role = .interfaceMember := hrole
    constructor
    · simp only [hrole, reduceCtorEq, false_iff]
      omega
    · constructor
      · rintro ⟨label, constant, hlabels⟩
        rw [hrole] at hlabels
        cases hlabels
      · rintro ⟨-, hempty⟩
        exact absurd (hempty e he) hfields
    · intro label constant hlabels
      rw [hrole] at hlabels
      cases hlabels
    · exact ⟨fun _ => ⟨hmany, e, he, hfields⟩, fun _ => hrole⟩

end

theorem keyed (hp : compile schemas capabilities = .ok p) : p.Keyed where
  keys := nodup_keys hp
  typed d hd := (assigns hp hd).isSome_iff
  known := by
    intro d hd key hkey
    have hassigns := assigns hp hd
    rw [hkey] at hassigns
    obtain ⟨t, ht⟩ := hassigns.exists_type?
    exact ⟨t, (type?_eq_some_iff hp).mp ht⟩
  distinct t ht := nodup_ids hp ht
  method d hd := (assigns hp hd).method_iff

/-- The keys of a compiled plan set fit together. If every declaration stands in the list of its
category, the types partition the constructors. -/
theorem types_partition (hp : compile schemas capabilities = .ok p) :
    p.Keyed ∧ ((∀ s ∈ schemas, s.Filed) → p.Partitioned) :=
  ⟨keyed hp, fun hs => ⟨fun _ => ids_eq hp hs, fun _ hd _ => roleFits hp hs hd⟩⟩

end PlanSet

/-! ## Constructors among the methods -/

def Schema.strayBlue : Schema where
  config := {}
  layer := none
  constructors := [⟨.constructor, 4, ⟨[], "colorRed"⟩, [], .named ⟨[], "Color"⟩ false⟩]
  methods := [
    ⟨.constructor, 3, ⟨[], "colorBlue"⟩, [], .named ⟨[], "Color"⟩ false⟩,
    ⟨.method, 6, ⟨[], "pick"⟩, [], .named ⟨[], "Color"⟩ false⟩]

def PlanSet.strayBlue : PlanSet :=
  (compile [.strayBlue] {}).toOption.getD default

theorem compile_strayBlue : compile [.strayBlue] {} = .ok .strayBlue := by
  rfl

/-- Types are made of the constructors alone, so that blue carries a key and is not listed. -/
theorem PlanSet.not_partitioned_strayBlue :
    compile [.strayBlue] {} = .ok .strayBlue ∧
      strayBlue.types.map (fun t => (t.key, t.representation.ids)) = [(⟨"", [], "Color"⟩, [4])] ∧
      (strayBlue.constructors ⟨"", [], "Color"⟩).map (·.id) = [4, 3] ∧ ¬strayBlue.Partitioned := by
  refine ⟨compile_strayBlue, by decide, by decide, fun h => ?_⟩
  have hids := h.ids
  revert hids
  decide

/-! ## Colors of two schemas -/

def Schema.color (name : String) (id : UInt32) : Schema where
  config := {}
  layer := none
  constructors := [⟨.constructor, id, ⟨[], name⟩, [], .named ⟨[], "Color"⟩ false⟩]
  methods := []

def Schema.colors : List Schema :=
  [color "colorRed" 4, people, color "colorBlue" 3]

def PlanSet.colors : PlanSet :=
  (compile Schema.colors {}).toOption.getD default

theorem compile_colors : compile Schema.colors {} = .ok .colors := by
  rfl

namespace PlanSet

/-- Colors of different schemas are members of one enum. -/
theorem types_partition_colors :
    colors.Keyed ∧ colors.Partitioned ∧
      (colors.constructors ⟨"", [], "Color"⟩).map (fun d => (d.id, d.role)) =
        [(4, .enumMember "Red" "RED"), (3, .enumMember "Blue" "BLUE")] := by
  obtain ⟨hkeyed, hpartitioned⟩ := types_partition compile_colors
  refine ⟨hkeyed, hpartitioned (by decide), ?_⟩
  decide

end PlanSet

end TypeLang
