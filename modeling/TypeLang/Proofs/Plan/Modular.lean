import TypeLang.Proofs.Plan.Dispatch
import TypeLang.Proofs.Plan.Types
import TypeLang.Proofs.Plan.Recursion

/-!
# Compiling in parts

Types are told apart by the prefix of their schema, so that schemas with different prefixes have
nothing in common but the identifiers. Stage by stage, what is made of two lists of such schemas is
what is made of the one and behind it what is made of the other: the groups of constructors, their
representations, the marks of recursive constructors and the plans of types and declarations. Only
the dispatch table can stand in the way, and it does if both lists declare one identifier
(`compile_append`).
-/

namespace TypeLang

namespace Schema

/-- No prefix of one list of schemas is a prefix of the other. -/
def Apart (front back : List Schema) : Prop :=
  ∀ s ∈ front, ∀ t ∈ back, s.config.namespacePrefix ≠ t.config.namespacePrefix

instance (front back : List Schema) : Decidable (Apart front back) :=
  inferInstanceAs (Decidable (∀ s ∈ front, ∀ t ∈ back,
    s.config.namespacePrefix ≠ t.config.namespacePrefix))

/-- No identifier is declared on both sides. -/
def Unshared (front back : List Schema) : Prop :=
  ∀ id ∈ declaredIds front, id ∉ declaredIds back

instance (front back : List Schema) : Decidable (Unshared front back) :=
  List.decidableBAll (· ∉ declaredIds back) (declaredIds front)

variable {front back schemas : List Schema}

theorem Apart.symm (h : Apart front back) : Apart back front :=
  fun s hs t ht heq => h t ht s hs heq.symm

theorem listing_append : listing (front ++ back) = listing front ++ listing back :=
  List.flatMap_append

end Schema

open Schema

/-! ## Groups -/

namespace TypeGroup

variable {front back schemas : List Schema} {groups : List TypeGroup} {g : TypeGroup}

theorem ofMembers_append {ms ns : List (TypeKey × Declaration)}
    (h : ∀ m ∈ ms, ∀ n ∈ ns, m.1 ≠ n.1) : ofMembers (ms ++ ns) = ofMembers ms ++ ofMembers ns := by
  have hnew : (ns.map (·.1)).removeAll (ms.map (·.1)) = ns.map (·.1) := by
    rw [List.removeAll, List.filter_eq_self]
    rintro _ hkey
    obtain ⟨n, hn, rfl⟩ := List.mem_map.mp hkey
    simpa using fun d hm => h (n.1, d) hm n hn rfl
  have hfront : ∀ key ∈ ms.map (·.1), ns.filter (·.1 == key) = [] := by
    intro _ hkey
    obtain ⟨m, hm, rfl⟩ := List.mem_map.mp hkey
    exact List.filter_eq_nil_iff.mpr fun n hn => by simpa using (h m hm n hn).symm
  have hback : ∀ key ∈ ns.map (·.1), ms.filter (·.1 == key) = [] := by
    intro _ hkey
    obtain ⟨n, hn, rfl⟩ := List.mem_map.mp hkey
    exact List.filter_eq_nil_iff.mpr fun m hm => by simpa using h m hm n hn
  unfold ofMembers
  rw [List.map_append, List.eraseDups_append, hnew, List.map_append]
  congr 1 <;> refine List.map_congr_left fun key hkey => ?_
  · rw [List.filter_append, hfront key (List.mem_eraseDups.mp hkey), List.append_nil]
  · rw [List.filter_append, hback key (List.mem_eraseDups.mp hkey), List.nil_append]

theorem ofSchemas_append (h : Apart front back) :
    ofSchemas (front ++ back) = ofSchemas front ++ ofSchemas back := by
  rw [ofSchemas, List.flatMap_append]
  refine ofMembers_append ?_
  rintro ⟨key, d⟩ hm ⟨other, e⟩ hn heq
  obtain ⟨s, hs, hm⟩ := List.mem_flatMap.mp hm
  obtain ⟨t, ht, hn⟩ := List.mem_flatMap.mp hn
  apply h s hs t ht
  rw [← schemaPrefix_of_ofResult? (mem_members_iff.mp hm).2,
    ← schemaPrefix_of_ofResult? (mem_members_iff.mp hn).2]
  exact congrArg TypeKey.schemaPrefix heq

def within (groups : List TypeGroup) (schemaPrefix : String) : List TypeGroup :=
  groups.filter (·.key.schemaPrefix == schemaPrefix)

theorem within_eq_nil (h : Apart front back) (hg : g ∈ ofSchemas front) :
    within (ofSchemas back) g.key.schemaPrefix = [] := by
  rw [within, List.filter_eq_nil_iff]
  intro other hother hsame
  obtain ⟨s, hs, hplace⟩ := exists_schema_of_group hg
  obtain ⟨t, ht, hother⟩ := exists_schema_of_group hother
  apply h s hs t ht
  rw [hplace, hother]
  exact (eq_of_beq hsame).symm

theorem within_append_left (h : Apart front back) (hg : g ∈ ofSchemas front) :
    within (ofSchemas front ++ ofSchemas back) g.key.schemaPrefix =
      within (ofSchemas front) g.key.schemaPrefix := by
  have hnone := within_eq_nil h hg
  rw [within, List.filter_append]
  rw [within] at hnone
  rw [hnone, List.append_nil, within]

theorem within_append_right (h : Apart front back) (hg : g ∈ ofSchemas back) :
    within (ofSchemas front ++ ofSchemas back) g.key.schemaPrefix =
      within (ofSchemas back) g.key.schemaPrefix := by
  have hnone := within_eq_nil h.symm hg
  rw [within, List.filter_append]
  rw [within] at hnone
  rw [hnone, List.nil_append, within]

end TypeGroup

/-! ## Recursive constructors -/

namespace Recursion

open TypeGroup

variable {groups : List TypeGroup} {schemaPrefix : String} {key : TypeKey} {d : Declaration}

theorem constructorType?_within (name : String) :
    constructorType? (within groups schemaPrefix) schemaPrefix name =
      constructorType? groups schemaPrefix name := by
  rw [constructorType?, within, ← List.filter_reverse, List.find?_filter, constructorType?]
  congr 2
  funext g
  rw [Bool.eq_iff_iff, decide_eq_true_iff, Bool.and_eq_true, and_self_left]

theorem references_within :
    references (within groups schemaPrefix) schemaPrefix d = references groups schemaPrefix d := by
  simp only [references, constructorType?_within]

theorem constructorsOf_within (hkey : key.schemaPrefix = schemaPrefix) :
    constructorsOf (within groups schemaPrefix) key = constructorsOf groups key := by
  have hfound : find? (within groups schemaPrefix) key = find? groups key := by
    rw [find?, within, List.find?_filter, find?]
    congr 1
    funext g
    rw [Bool.eq_iff_iff, decide_eq_true_iff, beq_iff_eq, beq_iff_eq]
    exact and_iff_right_of_imp fun h => h ▸ hkey
  rw [constructorsOf, hfound, constructorsOf]

/-- The search for a type, its visited identifiers included, goes by the groups of its own
prefix. -/
theorem search_within {visited : List UInt32} :
    search (within groups key.schemaPrefix) key d visited = search groups key d visited :=
  search_congr (fun _ => references_within) fun _ => constructorsOf_within

variable {front back : List Schema} {id : UInt32}

/-- No search enters a constructor of the other side, so that the marks are those of both sides. -/
theorem ids_append (h : Apart front back) :
    ids (ofSchemas (front ++ back)) = ids (ofSchemas front) ++ ids (ofSchemas back) := by
  have hfront : ∀ g ∈ ofSchemas front, ∀ d,
      search (ofSchemas front ++ ofSchemas back) g.key d [] =
        search (ofSchemas front) g.key d [] := by
    intro g hg d
    rw [← search_within, within_append_left h hg, search_within]
  have hback : ∀ g ∈ ofSchemas back, ∀ d,
      search (ofSchemas front ++ ofSchemas back) g.key d [] =
        search (ofSchemas back) g.key d [] := by
    intro g hg d
    rw [← search_within, within_append_right h hg, search_within]
  rw [ofSchemas_append h, ids, List.flatMap_append, ids, ids]
  congr 1
  · exact List.flatMap_congr fun g hg => by simp only [hfront g hg]
  · exact List.flatMap_congr fun g hg => by simp only [hback g hg]

theorem mem_declaredIds_of_mem_ids {schemas : List Schema} (h : id ∈ ids (ofSchemas schemas)) :
    id ∈ declaredIds schemas := by
  obtain ⟨g, hg, d, hd, rfl, -⟩ := mem_ids.mp h
  exact mem_declaredIds hg hd

theorem distinctIds_ofSchemas {schemas : List Schema} (hids : (declaredIds schemas).Nodup) :
    DistinctIds (ofSchemas schemas) := by
  intro d hd e he hsame
  obtain ⟨g, hg, hd⟩ := List.mem_flatMap.mp hd
  obtain ⟨g', hg', he⟩ := List.mem_flatMap.mp he
  obtain ⟨s, hd⟩ := exists_listed_of_mem hg hd
  obtain ⟨t, he⟩ := exists_listed_of_mem hg' he
  have hpair : (s, d) = (t, e) := List.inj_on_of_nodup_map hids hd he hsame
  exact (Prod.mk.inj hpair).2

end Recursion

/-! ## Representations -/

namespace RepresentedTypes

variable {front back : List Schema} {types others : RepresentedTypes} {key : TypeKey}

theorem ofGroups_append_eq_ok {gs hs : List TypeGroup} :
    ofGroups (gs ++ hs) = .ok types ↔
      ∃ ts us, ofGroups gs = .ok ts ∧ ofGroups hs = .ok us ∧ types = ts ++ us :=
  mapM_append_eq_ok

theorem exists_schema (h : ofGroups (TypeGroup.ofSchemas front) = .ok types)
    {t : TypeGroup × Representation} (ht : t ∈ types) :
    ∃ s ∈ front, s.config.namespacePrefix = t.1.key.schemaPrefix := by
  obtain ⟨g, hg, rfl, -⟩ := exists_mem_of_forall₂ (ofGroups_eq_ok h) ht
  exact TypeGroup.exists_schema_of_group hg

theorem find?_eq_none (h : ofGroups (TypeGroup.ofSchemas front) = .ok types)
    (hkey : ∀ s ∈ front, s.config.namespacePrefix ≠ key.schemaPrefix) : find? types key = none := by
  rw [find?, List.find?_eq_none]
  intro t ht hsame
  obtain ⟨s, hs, hplace⟩ := exists_schema h ht
  exact hkey s hs (hplace.trans (congrArg TypeKey.schemaPrefix (eq_of_beq hsame)))

theorem find?_append : find? (types ++ others) key = (find? types key).or (find? others key) :=
  List.find?_append

end RepresentedTypes

/-! ## Declarations -/

namespace DeclarationPlan

variable {types others : RepresentedTypes} {table : CapabilityTable} {marked marked' : List UInt32}
  {s : Schema} {d : Declaration}

/-- The plan of a declaration goes by the types of its own prefix and by its own mark. -/
theorem ofDeclaration_congr
    (htypes : ∀ key : TypeKey, key.schemaPrefix = s.config.namespacePrefix →
      types.find? key = others.find? key)
    (hmarked : d.id ∈ marked ↔ d.id ∈ marked') :
    ofDeclaration types table marked s d = ofDeclaration others table marked' s d := by
  have hclass : classify types s.config.namespacePrefix d =
      classify others s.config.namespacePrefix d := by
    unfold classify
    split
    · rfl
    · cases hkey : TypeKey.ofResult? s.config.namespacePrefix d.result with
      | none => rfl
      | some key =>
          rw [Option.bind_some, Option.bind_some,
            htypes key (TypeGroup.schemaPrefix_of_ofResult? hkey)]
  have hmark : marked.contains d.id = marked'.contains d.id := by
    rw [Bool.eq_iff_iff, List.contains_iff_mem, List.contains_iff_mem, hmarked]
  unfold ofDeclaration
  rw [hclass, hmark]

end DeclarationPlan

def Schema.planAll (types : RepresentedTypes) (table : CapabilityTable) (marked : List UInt32)
    (schemas : List Schema) : Except PlanError (List DeclarationPlan) :=
  (listing schemas).mapM fun (s, d) => DeclarationPlan.ofDeclaration types table marked s d

structure Schema.Planned (schemas : List Schema) (table : CapabilityTable)
    (types : RepresentedTypes) (ds : List DeclarationPlan) : Prop where
  represented : RepresentedTypes.ofGroups (TypeGroup.ofSchemas schemas) = .ok types
  plans : planAll types table (Recursion.ids (TypeGroup.ofSchemas schemas)) schemas = .ok ds

namespace Schema

variable {front back schemas : List Schema} {table : CapabilityTable}
  {types others : RepresentedTypes} {ds es : List DeclarationPlan}

theorem map_id_of_planAll {marked : List UInt32} (h : planAll types table marked schemas = .ok ds) :
    ds.map (·.id) = declaredIds schemas := by
  rw [← List.forall₂_eq_eq_eq, declaredIds, List.forall₂_map_left_iff, List.forall₂_map_right_iff]
  refine (mapM_eq_ok.mp h).flip.imp ?_
  rintro d ⟨s, decl⟩ hd
  exact (DeclarationPlan.ofDeclaration_eq_ok hd).2.1

theorem planAll_front (happart : Apart front back) (hids : Unshared front back)
    (hothers : RepresentedTypes.ofGroups (TypeGroup.ofSchemas back) = .ok others) :
    planAll (types ++ others) table (Recursion.ids (TypeGroup.ofSchemas (front ++ back))) front =
      planAll types table (Recursion.ids (TypeGroup.ofSchemas front)) front := by
  refine mapM_congr ?_
  rintro ⟨s, d⟩ hmem
  obtain ⟨hs, -⟩ := mem_listing.mp hmem
  refine DeclarationPlan.ofDeclaration_congr (fun key hkey => ?_) ?_
  · have hnone : others.find? key = none :=
      RepresentedTypes.find?_eq_none hothers fun t ht heq =>
        happart s hs t ht (hkey.symm.trans heq.symm)
    rw [RepresentedTypes.find?_append, hnone, Option.or_none]
  · rw [Recursion.ids_append happart, List.mem_append]
    have hdeclared : d.id ∈ declaredIds front := List.mem_map.mpr ⟨_, hmem, rfl⟩
    exact or_iff_left fun hback => hids _ hdeclared (Recursion.mem_declaredIds_of_mem_ids hback)

theorem planAll_back (happart : Apart front back) (hids : Unshared front back)
    (htypes : RepresentedTypes.ofGroups (TypeGroup.ofSchemas front) = .ok types) :
    planAll (types ++ others) table (Recursion.ids (TypeGroup.ofSchemas (front ++ back))) back =
      planAll others table (Recursion.ids (TypeGroup.ofSchemas back)) back := by
  refine mapM_congr ?_
  rintro ⟨s, d⟩ hmem
  obtain ⟨hs, -⟩ := mem_listing.mp hmem
  refine DeclarationPlan.ofDeclaration_congr (fun key hkey => ?_) ?_
  · have hnone : types.find? key = none :=
      RepresentedTypes.find?_eq_none htypes fun t ht heq =>
        happart t ht s hs (heq.trans hkey)
    rw [RepresentedTypes.find?_append, hnone, Option.none_or]
  · rw [Recursion.ids_append happart, List.mem_append]
    have hdeclared : d.id ∈ declaredIds back := List.mem_map.mpr ⟨_, hmem, rfl⟩
    exact or_iff_right fun hfront => hids _ (Recursion.mem_declaredIds_of_mem_ids hfront) hdeclared

/-- Up to the dispatch table, nothing of one side has a part in what the other comes to. -/
theorem planned_append_iff (happart : Apart front back) (hids : Unshared front back) :
    Planned (front ++ back) table types ds ↔
      ∃ ts us ds₁ ds₂, Planned front table ts ds₁ ∧ Planned back table us ds₂ ∧
        types = ts ++ us ∧ ds = ds₁ ++ ds₂ := by
  constructor
  · rintro ⟨htypes, hds⟩
    rw [TypeGroup.ofSchemas_append happart, RepresentedTypes.ofGroups_append_eq_ok] at htypes
    obtain ⟨ts, us, hts, hus, rfl⟩ := htypes
    rw [planAll, listing_append, mapM_append_eq_ok] at hds
    obtain ⟨ds₁, ds₂, hfront, hback, rfl⟩ := hds
    change planAll _ _ _ front = _ at hfront
    change planAll _ _ _ back = _ at hback
    rw [planAll_front happart hids hus] at hfront
    rw [planAll_back happart hids hts] at hback
    exact ⟨ts, us, ds₁, ds₂, ⟨hts, hfront⟩, ⟨hus, hback⟩, rfl, rfl⟩
  · rintro ⟨ts, us, ds₁, ds₂, hfront, hback, rfl, rfl⟩
    constructor
    · rw [TypeGroup.ofSchemas_append happart, RepresentedTypes.ofGroups_append_eq_ok]
      exact ⟨ts, us, hfront.represented, hback.represented, rfl⟩
    · rw [planAll, listing_append, mapM_append_eq_ok]
      refine ⟨ds₁, ds₂, ?_, ?_, rfl⟩
      · rw [← hfront.plans]
        exact planAll_front happart hids hback.represented
      · rw [← hback.plans]
        exact planAll_back happart hids hfront.represented

theorem Planned.unshared (h : Planned (front ++ back) table types ds)
    (hfree : DispatchTable.CollisionFree ds) : Unshared front back := by
  have hdistinct := hfree.distinct
  rw [map_id_of_planAll h.plans, declaredIds, listing_append, List.map_append,
    List.nodup_append] at hdistinct
  exact fun id hfront hback => hdistinct.2.2 id hfront id hback rfl

theorem Planned.collisionFree_append_iff (hids : Unshared front back)
    (hfront : Planned front table types ds) (hback : Planned back table others es) :
    DispatchTable.CollisionFree (ds ++ es) ↔
      DispatchTable.CollisionFree ds ∧ DispatchTable.CollisionFree es := by
  constructor
  · intro h
    refine ⟨h.of_append, ?_, fun d hd => h.notReserved d (List.mem_append_right _ hd)⟩
    have hdistinct := h.distinct
    rw [List.map_append] at hdistinct
    exact hdistinct.of_append_right
  · rintro ⟨hds, hes⟩
    constructor
    · rw [List.map_append, List.nodup_append]
      refine ⟨hds.distinct, hes.distinct, ?_⟩
      rw [map_id_of_planAll hfront.plans, map_id_of_planAll hback.plans]
      exact fun id hid other hother heq => hids id hid (heq ▸ hother)
    · intro d hd
      rcases List.mem_append.mp hd with hd | hd
      · exact hds.notReserved d hd
      · exact hes.notReserved d hd

end Schema

/-! ## Types -/

namespace TypePlan

variable {front back : List Schema} {table : CapabilityTable} {types : RepresentedTypes}

theorem map_ofRepresented_front
    (h : RepresentedTypes.ofGroups (TypeGroup.ofSchemas front) = .ok types) :
    types.map (ofRepresented (front ++ back) table) = types.map (ofRepresented front table) := by
  refine List.map_congr_left fun t ht => ?_
  obtain ⟨s, hs, hplace⟩ := RepresentedTypes.exists_schema h ht
  have howner : (front.find? (·.config.namespacePrefix == t.1.key.schemaPrefix)).isSome :=
    List.find?_isSome.mpr ⟨s, hs, by simpa using hplace⟩
  obtain ⟨owner, howner⟩ := Option.isSome_iff_exists.mp howner
  simp only [ofRepresented, List.find?_append, howner, Option.some_or]

theorem map_ofRepresented_back (happart : Apart front back)
    (h : RepresentedTypes.ofGroups (TypeGroup.ofSchemas back) = .ok types) :
    types.map (ofRepresented (front ++ back) table) = types.map (ofRepresented back table) := by
  refine List.map_congr_left fun t ht => ?_
  obtain ⟨s, hs, hplace⟩ := RepresentedTypes.exists_schema h ht
  have hnone : front.find? (·.config.namespacePrefix == t.1.key.schemaPrefix) = none := by
    rw [List.find?_eq_none]
    intro other hother hsame
    exact happart other hother s hs ((eq_of_beq hsame).trans hplace.symm)
  simp only [ofRepresented, List.find?_append, hnone, Option.none_or]

end TypePlan

/-! ## Plan sets -/

/-- One plan set holds what two others hold, entry for entry. The dispatch tables are left out: that
of the whole has positions in the whole. -/
structure PlanSet.IsAppend (p front back : PlanSet) : Prop where
  schemas : p.schemas = front.schemas ++ back.schemas
  types : p.types = front.types ++ back.types
  declarations : p.declarations = front.declarations ++ back.declarations

section

variable {front back schemas : List Schema} {capabilities : Capabilities} {table : CapabilityTable}
  {types : RepresentedTypes} {ds : List DeclarationPlan} {p q r : PlanSet}

theorem exists_planned (hp : compile schemas capabilities = .ok p) :
    ∃ table types, CapabilityTable.ofCapabilities capabilities = .ok table ∧
      Planned schemas table types p.declarations ∧
      p.types = types.map (TypePlan.ofRepresented schemas table) ∧
      p.schemas = schemas.map SchemaSummary.ofSchema := by
  obtain ⟨table, types, htable, htypes, hds, -, hplans, hsummaries⟩ := compile_eq_ok hp
  exact ⟨table, types, htable, ⟨htypes, hds⟩, hplans, hsummaries⟩

theorem compile_of_planned (htable : CapabilityTable.ofCapabilities capabilities = .ok table)
    (hplanned : Planned schemas table types ds) (hfree : DispatchTable.CollisionFree ds) :
    ∃ p, compile schemas capabilities = .ok p := by
  obtain ⟨dispatch, hdispatch, -⟩ := DispatchTable.ofDeclarations_of_collisionFree hfree
  refine ⟨⟨schemas.map SchemaSummary.ofSchema, types.map (TypePlan.ofRepresented schemas table), ds,
    dispatch⟩, ?_⟩
  refine bind_eq_ok.mpr ⟨table, htable, bind_eq_ok.mpr ⟨types, hplanned.represented, ?_⟩⟩
  exact bind_eq_ok.mpr ⟨ds, hplanned.plans, bind_eq_ok.mpr ⟨dispatch, hdispatch, rfl⟩⟩

theorem compile_parts (happart : Apart front back)
    (hp : compile (front ++ back) capabilities = .ok p) :
    Unshared front back ∧
      ∃ q r, compile front capabilities = .ok q ∧ compile back capabilities = .ok r := by
  obtain ⟨table, types, htable, hplanned, -⟩ := exists_planned hp
  have hfree := PlanSet.collisionFree hp
  have hids := hplanned.unshared hfree
  obtain ⟨ts, us, ds, es, hfront, hback, -, hds⟩ := (planned_append_iff happart hids).mp hplanned
  rw [hds, hfront.collisionFree_append_iff hids hback] at hfree
  obtain ⟨q, hq⟩ := compile_of_planned htable hfront hfree.1
  obtain ⟨r, hr⟩ := compile_of_planned htable hback hfree.2
  exact ⟨hids, q, r, hq, hr⟩

/-- If no identifier is shared, schemas that compile on their own also do together. -/
theorem compile_together (happart : Apart front back) (hids : Unshared front back)
    (hq : compile front capabilities = .ok q) (hr : compile back capabilities = .ok r) :
    ∃ p, compile (front ++ back) capabilities = .ok p := by
  obtain ⟨table, ts, htable, hfront, -⟩ := exists_planned hq
  obtain ⟨table', us, htable', hback, -⟩ := exists_planned hr
  obtain rfl := Except.ok.inj (htable.symm.trans htable')
  refine compile_of_planned htable
    ((planned_append_iff happart hids).mpr ⟨ts, us, _, _, hfront, hback, rfl, rfl⟩) ?_
  exact (hfront.collisionFree_append_iff hids hback).mpr
    ⟨PlanSet.collisionFree hq, PlanSet.collisionFree hr⟩

theorem isAppend_of_compile (happart : Apart front back)
    (hp : compile (front ++ back) capabilities = .ok p)
    (hq : compile front capabilities = .ok q) (hr : compile back capabilities = .ok r) :
    p.IsAppend q r := by
  obtain ⟨table, types, htable, hplanned, htypes, hschemas⟩ := exists_planned hp
  obtain ⟨table', ts, htable', hfront, htypes', hschemas'⟩ := exists_planned hq
  obtain ⟨table'', us, htable'', hback, htypes'', hschemas''⟩ := exists_planned hr
  obtain rfl := Except.ok.inj (htable.symm.trans htable')
  obtain rfl := Except.ok.inj (htable.symm.trans htable'')
  have hids := hplanned.unshared (PlanSet.collisionFree hp)
  have htogether := (planned_append_iff happart hids).mpr ⟨ts, us, _, _, hfront, hback, rfl, rfl⟩
  obtain rfl := Except.ok.inj (hplanned.represented.symm.trans htogether.represented)
  constructor
  · rw [hschemas, hschemas', hschemas'', List.map_append]
  · rw [htypes, htypes', htypes'', List.map_append,
      TypePlan.map_ofRepresented_front hfront.represented,
      TypePlan.map_ofRepresented_back happart hback.represented]
  · exact Except.ok.inj (hplanned.plans.symm.trans htogether.plans)

/-- Schemas with different prefixes compile together exactly if they do on their own and share no
identifier. Their plans are then those of the one list and behind them those of the other. -/
theorem compile_append (happart : Apart front back) (capabilities : Capabilities) :
    ((∃ p, compile (front ++ back) capabilities = .ok p) ↔
      (∃ q, compile front capabilities = .ok q) ∧ (∃ r, compile back capabilities = .ok r) ∧
        Unshared front back) ∧
    ∀ p, compile (front ++ back) capabilities = .ok p →
      ∃ q r, compile front capabilities = .ok q ∧ compile back capabilities = .ok r ∧
        p.IsAppend q r := by
  refine ⟨⟨?_, ?_⟩, fun p hp => ?_⟩
  · rintro ⟨p, hp⟩
    obtain ⟨hids, q, r, hq, hr⟩ := compile_parts happart hp
    exact ⟨⟨q, hq⟩, ⟨r, hr⟩, hids⟩
  · rintro ⟨⟨q, hq⟩, ⟨r, hr⟩, hids⟩
    exact compile_together happart hids hq hr
  · obtain ⟨-, q, r, hq, hr⟩ := compile_parts happart hp
    exact ⟨q, r, hq, hr, isAppend_of_compile happart hp hq hr⟩

end

/-! ## An example -/

def Schema.transport : Schema where
  config := .mtproto
  layer := none
  constructors := [
    ⟨.constructor, 3, ⟨[], "place"⟩, [⟨"address", .primitive .string⟩], .named ⟨[], "Place"⟩ false⟩]
  methods := [
    ⟨.method, 4, ⟨[], "locate"⟩, [⟨"address", .primitive .string⟩], .named ⟨[], "Place"⟩ false⟩]

def PlanSet.transport : PlanSet :=
  (compile [.transport] {}).toOption.getD default

theorem compile_transport : compile [.transport] {} = .ok .transport := by
  rfl

/-- Places of people and of the transport stay apart. -/
theorem compile_append_transport :
    ∃ p, compile [.people, .transport] {} = .ok p ∧ p.IsAppend .people .transport ∧
      p.types.map (·.key.text) = ["Place", "Person", "mtproto:Place"] := by
  have happart : Apart [.people] [.transport] := by decide
  obtain ⟨hiff, hparts⟩ := compile_append happart {}
  obtain ⟨p, hp⟩ := hiff.mpr ⟨⟨_, compile_people⟩, ⟨_, compile_transport⟩, by decide⟩
  obtain ⟨q, r, hq, hr, happend⟩ := hparts p hp
  rw [compile_people] at hq
  rw [compile_transport] at hr
  cases hq
  cases hr
  refine ⟨p, hp, happend, ?_⟩
  rw [happend.types]
  decide

end TypeLang
