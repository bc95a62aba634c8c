import TypeLang.Proofs.Name.CommonPrefix
import TypeLang.Proofs.Plan.Modular

/-!
# Compiling in another order

Schemas with one prefix share their types, and a type has its constructors in the order of the
schemas. What a compilation makes of a declaration does not depend on that order: neither the
beginning that names have in common nor whether labels repeat does, members are found by their
identifiers, and whether a constructor leads back to its type is a matter of which types there are.
So schemas compile in every order or in none, and if no constructor name stands for two types, the
plans of declarations only change places (`compile_perm`).
-/

namespace TypeLang

/-! ## Lists in another order -/

namespace Association

variable {α β : Type} [BEq α] [LawfulBEq α] {xs ys : List β} {keyOf : β → α} {key : α}

theorem find?_eq_some_iff_mem (hdistinct : (xs.map keyOf).Nodup) {x : β} :
    xs.find? (keyOf · == key) = some x ↔ x ∈ xs ∧ keyOf x = key := by
  constructor
  · intro h
    exact ⟨List.mem_of_find?_eq_some h, by simpa using List.find?_some h⟩
  · rintro ⟨hx, rfl⟩
    exact find?_eq_some_of_mem hdistinct hx

/-- If no key is repeated, the order does not matter to what is found under a key. -/
theorem find?_eq_of_perm (hdistinct : (xs.map keyOf).Nodup) (h : xs.Perm ys) (key : α) :
    xs.find? (keyOf · == key) = ys.find? (keyOf · == key) := by
  ext x
  rw [find?_eq_some_iff_mem hdistinct,
    find?_eq_some_iff_mem ((h.map keyOf).nodup_iff.mp hdistinct), h.mem_iff]

end Association

section

variable {ε α β : Type} {f : α → Except ε β} {xs ys : List α} {us : List β}

theorem mapM_perm (h : xs.Perm ys) (hus : xs.mapM f = .ok us) :
    ∃ vs, ys.mapM f = .ok vs ∧ us.Perm vs := by
  obtain ⟨vs, hvs, hperm⟩ := List.perm_comp_forall₂ h.symm (mapM_eq_ok.mp hus)
  exact ⟨vs, mapM_eq_ok.mpr hvs, hperm.symm⟩

/-- A step on every member succeeds exactly if it does on each of them. -/
theorem exists_mapM_eq_ok_iff : (∃ us, xs.mapM f = .ok us) ↔ ∀ x ∈ xs, ∃ u, f x = .ok u := by
  constructor
  · rintro ⟨us, hus⟩ x hx
    obtain ⟨u, -, hu⟩ := exists_mem_of_forall₂ (mapM_eq_ok.mp hus).flip hx
    exact ⟨u, hu⟩
  · intro h
    induction xs with
    | nil => exact ⟨[], rfl⟩
    | cons x xs ih =>
        obtain ⟨hx, hxs⟩ := List.forall_mem_cons.mp h
        obtain ⟨u, hu⟩ := hx
        obtain ⟨us, hus⟩ := ih hxs
        exact ⟨u :: us, mapM_eq_ok.mpr (.cons hu (mapM_eq_ok.mp hus))⟩

end

/-! ## Representations -/

namespace Representation

variable {key : TypeKey} {ds es : List Declaration} {r : Representation} {id : UInt32}

inductive Reordered : Representation → Representation → Prop
  | singleton (id : UInt32) : Reordered (.singleton id) (.singleton id)
  | enum {members others : List EnumMember} (perm : members.Perm others) :
      Reordered (.enum members) (.enum others)
  | interface (fields others : List CommonField) (members siblings : List InterfaceMember) :
      Reordered (.interface fields members) (.interface others siblings)

theorem Reordered.roleIn_eq {r' : Representation} (h : Reordered r r') (hids : r.ids.Nodup)
    (id : UInt32) : DeclarationPlan.roleIn r id = DeclarationPlan.roleIn r' id := by
  cases h with
  | singleton => rfl
  | interface => rfl
  | enum perm =>
      simp only [DeclarationPlan.roleIn, enumMember?]
      rw [Association.find?_eq_of_perm hids perm]

def label (ds : List Declaration) (d : Declaration) : List Char :=
  d.fullName.toList.drop (Casing.commonPrefix (ds.map (·.fullName))).toList.length

theorem label_perm (h : ds.Perm es) : label ds = label es := by
  unfold label
  rw [Casing.commonPrefix_perm (h.map (·.fullName))]

section

variable {start : Nat} {labelOf : Declaration → List Char} {before : List Declaration}

theorem addMember?_eq {d : Declaration} {front : List Char}
    (hcut : Text.splitAtByte? start d.fullName.toList = some (front, labelOf d)) :
    addMember? start (before.map fun e => enumMember e (labelOf e)) d =
      if labelOf d = [] ∨ labelOf d ∈ before.map labelOf then none
      else some ((before ++ [d]).map fun e => enumMember e (labelOf e)) := by
  have htaken : (before.map fun e => enumMember e (labelOf e)).any
      (·.label == String.ofList (labelOf d)) = true ↔ labelOf d ∈ before.map labelOf := by
    simp only [List.any_map, List.any_eq_true, Function.comp_apply, beq_iff_eq, List.mem_map,
      enumMember, String.ofList_inj]
  rw [addMember?, hcut, Option.bind_eq_bind, Option.bind_some, List.map_append]
  simp only [Bool.or_eq_true, List.isEmpty_iff, htaken, List.map_cons, List.map_nil]

/-- The labels of the members so far are compared with every new one, which comes to all labels
being distinct. -/
theorem foldlM_addMember?
    (hcut : ∀ d ∈ ds, ∃ front, Text.splitAtByte? start d.fullName.toList = some (front, labelOf d))
    (hbefore : (before.map labelOf).Nodup) :
    ds.foldlM (addMember? start) (before.map fun e => enumMember e (labelOf e)) =
      if (ds.map labelOf).all (!·.isEmpty) ∧ ((before ++ ds).map labelOf).Nodup then
        some ((before ++ ds).map fun e => enumMember e (labelOf e))
      else none := by
  induction ds generalizing before with
  | nil =>
      rw [List.append_nil, if_pos ⟨rfl, hbefore⟩]
      rfl
  | cons d ds ih =>
      obtain ⟨⟨front, hd⟩, hds⟩ := List.forall_mem_cons.mp hcut
      rw [List.foldlM_cons, addMember?_eq hd, List.map_cons, List.all_cons]
      by_cases hlabel : labelOf d = [] ∨ labelOf d ∈ before.map labelOf
      · rw [if_pos hlabel, if_neg]
        · rfl
        · rintro ⟨hall, hdistinct⟩
          rcases hlabel with hempty | htaken
          · rw [hempty] at hall
            cases hall
          · rw [List.map_append, List.map_cons] at hdistinct
            exact List.disjoint_of_nodup_append hdistinct htaken List.mem_cons_self
      · rw [not_or] at hlabel
        have hnext : ((before ++ [d]).map labelOf).Nodup := by
          rw [List.map_append, List.map_singleton, ← List.concat_eq_append]
          exact hbefore.concat hlabel.2
        have hnonempty : (!(labelOf d).isEmpty) = true := by simpa using hlabel.1
        rw [if_neg (not_or.mpr hlabel), Option.bind_eq_bind, Option.bind_some, ih hds hnext,
          List.append_assoc, List.singleton_append, hnonempty, Bool.true_and]

end

theorem ofEnum_eq : ofEnum key ds =
    if (ds.map (label ds)).all (!·.isEmpty) ∧ (ds.map (label ds)).Nodup then
      .ok (enum (ds.map fun d => enumMember d (label ds d)))
    else .error (.enumLabels key.text (ds.map (·.fullName))) := by
  have hcut : ∀ d ∈ ds, ∃ front, Text.splitAtByte?
      (Casing.commonPrefix (ds.map (·.fullName))).utf8ByteSize d.fullName.toList =
        some (front, label ds d) :=
    fun d hd => ⟨_, Casing.splitAtByte?_commonPrefix (List.mem_map_of_mem hd)⟩
  have hnone : (List.map (label ds) []).Nodup := List.nodup_nil
  have hmembers := foldlM_addMember? hcut hnone
  rw [List.map_nil, List.nil_append] at hmembers
  simp only [ofEnum, hmembers]
  by_cases hlabels : (ds.map (label ds)).all (!·.isEmpty) ∧ (ds.map (label ds)).Nodup
  · rw [if_pos hlabels, if_pos hlabels]
  · rw [if_neg hlabels, if_neg hlabels]

theorem ofEnum_perm (h : ds.Perm es) (hr : ofEnum key ds = .ok r) :
    ∃ r', ofEnum key es = .ok r' ∧ Reordered r r' := by
  rw [ofEnum_eq] at hr ⊢
  split at hr
  · rename_i hlabels
    cases hr
    rw [label_perm h] at hlabels ⊢
    have hperm := h.map (label es)
    rw [hperm.nodup_iff, hperm.all_eq] at hlabels
    rw [if_pos hlabels]
    exact ⟨_, rfl, .enum (h.map _)⟩
  · cases hr

theorem ofConstructors_of_several (first second : Declaration) (rest : List Declaration) :
    ofConstructors key (first :: second :: rest) =
      if (first :: second :: rest).all (·.params.isEmpty) then ofEnum key (first :: second :: rest)
      else .ok (ofInterface key first (second :: rest)) :=
  rfl

theorem ofConstructors_perm (h : ds.Perm es) (hr : ofConstructors key ds = .ok r) :
    ∃ r', ofConstructors key es = .ok r' ∧ Reordered r r' := by
  match ds, h, hr with
  | [only], h, hr =>
      cases h.singleton_eq
      cases hr
      exact ⟨_, rfl, .singleton only.id⟩
  | first :: second :: rest, h, hr =>
      match es, h with
      | [], h => cases h.eq_nil
      | [only], h => cases h.eq_singleton
      | first' :: second' :: rest', h =>
          rw [ofConstructors_of_several, h.all_eq] at hr
          rw [ofConstructors_of_several]
          split at hr
          · rw [if_pos ‹_›]
            exact ofEnum_perm h hr
          · cases hr
            rw [if_neg ‹_›]
            exact ⟨_, rfl, .interface ..⟩

end Representation

/-! ## Groups -/

namespace TypeGroup

open Schema

variable {schemas others : List Schema} {g : TypeGroup}

theorem exists_group_of_perm (h : schemas.Perm others) (hg : g ∈ ofSchemas schemas) :
    ∃ g' ∈ ofSchemas others, g'.key = g.key ∧ g.constructors.Perm g'.constructors := by
  have hmembers : (schemas.flatMap members).Perm (others.flatMap members) := h.flatMap_right _
  obtain ⟨⟨d, hd⟩, hconstructors⟩ := mem_ofSchemas_iff.mp hg
  refine ⟨⟨g.key, ((others.flatMap members).filter (·.1 == g.key)).map (·.2)⟩,
    mem_ofSchemas_iff.mpr ⟨⟨d, hmembers.mem_iff.mp hd⟩, rfl⟩, rfl, ?_⟩
  rw [hconstructors]
  exact (hmembers.filter _).map _

end TypeGroup

/-! ## Recursive constructors -/

def Schema.constructorListing (schemas : List Schema) : List (Schema × Declaration) :=
  schemas.flatMap fun s => s.constructors.map (s, ·)

def Schema.DistinctNames (schemas : List Schema) : Prop :=
  ((constructorListing schemas).map fun (s, d) => (s.config.namespacePrefix, d.fullName)).Nodup

instance (schemas : List Schema) : Decidable (Schema.DistinctNames schemas) :=
  inferInstanceAs (Decidable (List.Nodup _))

theorem Schema.DistinctNames.perm {schemas others : List Schema} (hnames : DistinctNames schemas)
    (h : schemas.Perm others) : DistinctNames others :=
  ((h.flatMap_right _).map _).nodup_iff.mp hnames

section

variable {schemas others : List Schema}

theorem Schema.listing_perm (h : schemas.Perm others) : (listing schemas).Perm (listing others) :=
  h.flatMap_right _

theorem Schema.declaredIds_perm (h : schemas.Perm others) :
    (declaredIds schemas).Perm (declaredIds others) :=
  (listing_perm h).map _

end

theorem TypeGroup.exists_listed {schemas : List Schema} {g : TypeGroup} {d : Declaration}
    (hg : g ∈ ofSchemas schemas) (hd : d ∈ g.constructors) :
    ∃ s, (s, d) ∈ Schema.constructorListing schemas ∧
      TypeKey.ofResult? s.config.namespacePrefix d.result = some g.key := by
  obtain ⟨s, hs, hdeclared, hkey⟩ := exists_schema_of_mem hg hd
  exact ⟨s, List.mem_flatMap.mpr ⟨s, hs, List.mem_map_of_mem hdeclared⟩, hkey⟩

theorem TypeGroup.key_eq_of_fullName_eq {schemas : List Schema}
    (hnames : Schema.DistinctNames schemas) {g g' : TypeGroup} (hg : g ∈ ofSchemas schemas)
    (hg' : g' ∈ ofSchemas schemas) (hscope : g.key.schemaPrefix = g'.key.schemaPrefix)
    {d d' : Declaration} (hd : d ∈ g.constructors) (hd' : d' ∈ g'.constructors)
    (hname : d.fullName = d'.fullName) : g.key = g'.key := by
  obtain ⟨s, hmem, hkey⟩ := exists_listed hg hd
  obtain ⟨s', hmem', hkey'⟩ := exists_listed hg' hd'
  rw [schemaPrefix_of_ofResult? hkey, schemaPrefix_of_ofResult? hkey'] at hscope
  have hsame : (s, d) = (s', d') :=
    List.inj_on_of_nodup_map hnames hmem hmem' (Prod.ext hscope hname)
  cases hsame
  exact Option.some.inj (hkey.symm.trans hkey')

namespace Recursion

open Relation (ReflTransGen)
open Schema TypeGroup

variable {schemas others : List Schema} {schemaPrefix name : String} {key named : TypeKey}
  {d : Declaration} {id : UInt32}

/-- If names are distinct, the type of a constructor is the one that has a constructor of its
name. -/
theorem constructorType?_eq_some_iff (hnames : DistinctNames schemas) :
    constructorType? (ofSchemas schemas) schemaPrefix name = some key ↔
      key.schemaPrefix = schemaPrefix ∧
        ∃ g ∈ ofSchemas schemas, g.key = key ∧ ∃ d ∈ g.constructors, d.fullName = name := by
  have hfound {g : TypeGroup} (h : (ofSchemas schemas).reverse.find? (fun g =>
      g.key.schemaPrefix == schemaPrefix && g.constructors.any (·.fullName == name)) = some g) :
      g ∈ ofSchemas schemas ∧ g.key.schemaPrefix = schemaPrefix ∧
        ∃ d ∈ g.constructors, d.fullName = name := by
    have hmem := List.mem_of_find?_eq_some h
    have htest := List.find?_some h
    simp only [Bool.and_eq_true, beq_iff_eq, List.any_eq_true] at htest
    exact ⟨List.mem_reverse.mp hmem, htest⟩
  rw [constructorType?, Option.map_eq_some_iff]
  constructor
  · rintro ⟨g, hg, rfl⟩
    obtain ⟨hmem, hscope, hd⟩ := hfound hg
    exact ⟨hscope, g, hmem, rfl, hd⟩
  · rintro ⟨rfl, g, hg, rfl, d, hd, rfl⟩
    obtain ⟨g', hg'⟩ : ∃ g', (ofSchemas schemas).reverse.find? (fun other =>
        other.key.schemaPrefix == g.key.schemaPrefix &&
          other.constructors.any (·.fullName == d.fullName)) = some g' := by
      refine Option.isSome_iff_exists.mp (List.find?_isSome.mpr ⟨g, List.mem_reverse.mpr hg, ?_⟩)
      simpa using ⟨d, hd, rfl⟩
    obtain ⟨hmem, hscope, d', hd', hname⟩ := hfound hg'
    exact ⟨g', hg', key_eq_of_fullName_eq hnames hmem hg hscope hd' hd hname⟩

section

variable (hnames : DistinctNames schemas) (h : schemas.Perm others)

include hnames h

theorem constructorType?_perm :
    constructorType? (ofSchemas schemas) schemaPrefix name =
      constructorType? (ofSchemas others) schemaPrefix name := by
  have himp {front back : List Schema} (hperm : front.Perm back) {key : TypeKey}
      (hgroup : ∃ g ∈ ofSchemas front, g.key = key ∧ ∃ d ∈ g.constructors, d.fullName = name) :
      ∃ g ∈ ofSchemas back, g.key = key ∧ ∃ d ∈ g.constructors, d.fullName = name := by
    obtain ⟨g, hg, rfl, d, hd, hname⟩ := hgroup
    obtain ⟨g', hg', hkey, hconstructors⟩ := exists_group_of_perm hperm hg
    exact ⟨g', hg', hkey, d, hconstructors.mem_iff.mp hd, hname⟩
  ext key
  rw [constructorType?_eq_some_iff hnames, constructorType?_eq_some_iff (hnames.perm h)]
  exact and_congr_right fun _ => ⟨himp h, himp h.symm⟩

theorem references_perm :
    references (ofSchemas schemas) schemaPrefix d =
      references (ofSchemas others) schemaPrefix d := by
  simp only [references, constructorType?_perm hnames h]

theorem refers_of_perm (hrefers : Refers (ofSchemas schemas) key named) :
    Refers (ofSchemas others) key named := by
  obtain ⟨g, hg, rfl, d, hd, hreference⟩ := hrefers
  obtain ⟨g', hg', hkey, hconstructors⟩ := exists_group_of_perm h hg
  rw [references_perm hnames h] at hreference
  exact ⟨g', hg', hkey, d, hconstructors.mem_iff.mp hd, hreference⟩

theorem leadsBack_of_perm (hback : LeadsBack (ofSchemas schemas) key d) :
    LeadsBack (ofSchemas others) key d := by
  obtain ⟨named, hreference, hchain⟩ := hback
  rw [references_perm hnames h] at hreference
  have hmono : Refers (ofSchemas schemas) ≤ Refers (ofSchemas others) :=
    fun _ _ => refers_of_perm hnames h
  exact ⟨named, hreference, ReflTransGen.mono hmono _ _ hchain⟩

theorem mem_ids_of_perm (hids : (declaredIds schemas).Nodup) (hid : id ∈ ids (ofSchemas schemas)) :
    id ∈ ids (ofSchemas others) := by
  rw [mem_ids_iff (nodup_keys _) (distinctIds_ofSchemas hids)] at hid
  rw [mem_ids_iff (nodup_keys _) (distinctIds_ofSchemas ((declaredIds_perm h).nodup_iff.mp hids))]
  obtain ⟨g, hg, d, hd, rfl, hback⟩ := hid
  obtain ⟨g', hg', hkey, hconstructors⟩ := exists_group_of_perm h hg
  refine ⟨g', hg', d, hconstructors.mem_iff.mp hd, rfl, ?_⟩
  rw [hkey]
  exact leadsBack_of_perm hnames h hback

end

end Recursion

/-! ## Types -/

namespace RepresentedTypes

variable {groups : List TypeGroup} {types : RepresentedTypes} {key : TypeKey} {g : TypeGroup}
  {r : Representation}

theorem exists_ofGroups_iff : (∃ types, ofGroups groups = .ok types) ↔
    ∀ g ∈ groups, ∃ r, Representation.ofConstructors g.key g.constructors = .ok r := by
  rw [ofGroups, exists_mapM_eq_ok_iff]
  refine forall₂_congr fun g _ => ⟨?_, ?_⟩
  · rintro ⟨t, ht⟩
    obtain ⟨r, hr, -⟩ := bind_eq_ok.mp ht
    exact ⟨r, hr⟩
  · rintro ⟨r, hr⟩
    exact ⟨(g, r), bind_eq_ok.mpr ⟨r, hr, rfl⟩⟩

/-- What is found under a key is the group with this key, and its representation. -/
theorem find?_eq_some_iff (h : ofGroups groups = .ok types) (hkeys : (groups.map (·.key)).Nodup) :
    types.find? key = some (g, r) ↔
      g ∈ groups ∧ g.key = key ∧ Representation.ofConstructors g.key g.constructors = .ok r := by
  have htypes := ofGroups_eq_ok h
  have hsame : types.map (·.1.key) = groups.map (·.key) := by
    rw [← List.forall₂_eq_eq_eq, List.forall₂_map_left_iff, List.forall₂_map_right_iff]
    exact htypes.flip.imp fun t g ht => congrArg TypeGroup.key ht.1
  rw [find?, Association.find?_eq_some_iff_mem (hsame ▸ hkeys)]
  constructor
  · rintro ⟨hmem, rfl⟩
    obtain ⟨_, hg, rfl, hr⟩ := exists_mem_of_forall₂ htypes hmem
    exact ⟨hg, rfl, hr⟩
  · rintro ⟨hg, rfl, hr⟩
    obtain ⟨⟨_, r'⟩, hmem, rfl, hr'⟩ := exists_mem_of_forall₂ htypes.flip hg
    obtain rfl := Except.ok.inj (hr.symm.trans hr')
    exact ⟨hmem, rfl⟩

end RepresentedTypes

/-! ## Declarations -/

namespace DeclarationPlan

open Schema

variable {schemas others : List Schema} {types types' : RepresentedTypes} {table : CapabilityTable}
  {marked marked' : List UInt32} {s : Schema} {decl : Declaration} {d : DeclarationPlan}

theorem exists_ofDeclaration_iff : (∃ d, ofDeclaration types table marked s decl = .ok d) ↔
    ∃ l, Layout.ofDeclaration decl = .ok l := by
  constructor
  · rintro ⟨d, hd⟩
    exact ⟨d.layout, (ofDeclaration_eq_ok hd).1⟩
  · rintro ⟨l, hl⟩
    exact ⟨_, bind_eq_ok.mpr ⟨l, hl, rfl⟩⟩

theorem role_of_ofDeclaration (h : ofDeclaration types table marked s decl = .ok d) :
    d.role = (classify types s.config.namespacePrefix decl).2.1 := by
  unfold ofDeclaration at h
  obtain ⟨layout, -, h⟩ := bind_eq_ok.mp h
  cases h
  rfl

section

variable (hids : (declaredIds schemas).Nodup) (h : schemas.Perm others)
  (htypes : RepresentedTypes.ofGroups (TypeGroup.ofSchemas schemas) = .ok types)
  (htypes' : RepresentedTypes.ofGroups (TypeGroup.ofSchemas others) = .ok types')

include hids h htypes htypes'

/-- Found in another order, a type has as many constructors and gives them the same roles. -/
theorem find?_perm {key : TypeKey} {g : TypeGroup} {r : Representation}
    (hfound : types.find? key = some (g, r)) :
    ∃ g' r', types'.find? key = some (g', r') ∧ g'.key = g.key ∧ g'.isSingle = g.isSingle ∧
      ∀ id, roleIn r id = roleIn r' id := by
  obtain ⟨hg, rfl, hr⟩ :=
    (RepresentedTypes.find?_eq_some_iff htypes (TypeGroup.nodup_keys schemas)).mp hfound
  obtain ⟨g', hg', hkey, hconstructors⟩ := TypeGroup.exists_group_of_perm h hg
  obtain ⟨r', hr', hreordered⟩ := Representation.ofConstructors_perm hconstructors hr
  rw [← hkey] at hr'
  refine ⟨g', r', ?_, hkey, ?_, hreordered.roleIn_eq ?_⟩
  · exact (RepresentedTypes.find?_eq_some_iff htypes' (TypeGroup.nodup_keys others)).mpr
      ⟨hg', hkey, hr'⟩
  · rw [TypeGroup.isSingle, TypeGroup.isSingle, hconstructors.length_eq]
  · rw [Representation.ids_of_ofConstructors hr]
    exact TypeGroup.nodup_ids hg hids

theorem classify_perm (schemaPrefix : String) :
    classify types schemaPrefix decl = classify types' schemaPrefix decl := by
  have hids' : (declaredIds others).Nodup :=
    (((h.flatMap_right _).map _).nodup_iff.mp hids :)
  unfold classify
  split
  · rfl
  cases TypeKey.ofResult? schemaPrefix decl.result with
  | none => rfl
  | some key =>
      rw [Option.bind_some, Option.bind_some]
      cases hfound : types.find? key with
      | some found =>
          obtain ⟨g, r⟩ := found
          obtain ⟨g', r', hfound', hkey, hsingle, hroles⟩ := find?_perm hids h htypes htypes' hfound
          rw [hfound']
          simp only [hkey, hsingle, hroles]
      | none =>
          cases hfound' : types'.find? key with
          | none => rfl
          | some found =>
              obtain ⟨_, _, hagain, -⟩ := find?_perm hids' h.symm htypes' htypes hfound'
              rw [hfound] at hagain
              cases hagain

theorem ofDeclaration_perm (hmarked : decl.id ∈ marked ↔ decl.id ∈ marked') :
    ofDeclaration types table marked s decl = ofDeclaration types' table marked' s decl := by
  have hmark : marked.contains decl.id = marked'.contains decl.id := by
    rw [Bool.eq_iff_iff, List.contains_iff_mem, List.contains_iff_mem, hmarked]
  unfold ofDeclaration
  rw [classify_perm hids h htypes htypes', hmark]

end

end DeclarationPlan

/-! ## Plan sets -/

section

open Schema

variable {schemas others : List Schema} {capabilities : Capabilities}

theorem exists_compile_of_perm (h : schemas.Perm others) {p : PlanSet}
    (hp : compile schemas capabilities = .ok p) : ∃ q, compile others capabilities = .ok q := by
  obtain ⟨table, types, htable, ⟨htypes, hds⟩, -⟩ := exists_planned hp
  have hfree := PlanSet.collisionFree hp
  have hids := hfree.distinct
  rw [map_id_of_planAll hds] at hids
  obtain ⟨types', htypes'⟩ : ∃ types',
      RepresentedTypes.ofGroups (TypeGroup.ofSchemas others) = .ok types' := by
    rw [RepresentedTypes.exists_ofGroups_iff]
    intro g hg
    obtain ⟨g', hg', hkey, hconstructors⟩ := TypeGroup.exists_group_of_perm h.symm hg
    obtain ⟨r, hr⟩ := RepresentedTypes.exists_ofGroups_iff.mp ⟨types, htypes⟩ g' hg'
    obtain ⟨r', hr', -⟩ := Representation.ofConstructors_perm hconstructors.symm hr
    exact ⟨r', hkey ▸ hr'⟩
  obtain ⟨es, hes⟩ : ∃ es, planAll types' table
      (Recursion.ids (TypeGroup.ofSchemas others)) others = .ok es := by
    rw [planAll, exists_mapM_eq_ok_iff]
    rintro ⟨s, decl⟩ hmem
    have hplan := exists_mapM_eq_ok_iff.mp ⟨_, hds⟩ (s, decl) ((listing_perm h).mem_iff.mpr hmem)
    exact DeclarationPlan.exists_ofDeclaration_iff.mpr
      (DeclarationPlan.exists_ofDeclaration_iff.mp hplan)
  refine compile_of_planned htable ⟨htypes', hes⟩ ⟨?_, fun e he hrole => ?_⟩
  · rw [map_id_of_planAll hes]
    exact (declaredIds_perm h).nodup_iff.mp hids
  · obtain ⟨⟨s, decl⟩, hmem, hplan⟩ := exists_mem_of_forall₂ (mapM_eq_ok.mp hes) he
    obtain ⟨d, hd, hplan'⟩ :=
      exists_mem_of_forall₂ (mapM_eq_ok.mp hds).flip ((listing_perm h).mem_iff.mpr hmem)
    have hsame : d.role = e.role := by
      rw [DeclarationPlan.role_of_ofDeclaration hplan, DeclarationPlan.role_of_ofDeclaration hplan',
        DeclarationPlan.classify_perm hids h htypes htypes']
    have hid : d.id = e.id := (DeclarationPlan.ofDeclaration_eq_ok hplan').2.1.trans
      (DeclarationPlan.ofDeclaration_eq_ok hplan).2.1.symm
    rw [← hid]
    exact hfree.notReserved d hd (hsame ▸ hrole)

/-- If names are distinct, the plans of declarations are the same in every order. -/
theorem declarations_perm (hnames : DistinctNames schemas) (h : schemas.Perm others)
    {p q : PlanSet} (hp : compile schemas capabilities = .ok p)
    (hq : compile others capabilities = .ok q) : p.declarations.Perm q.declarations := by
  obtain ⟨table, types, htable, ⟨htypes, hds⟩, -⟩ := exists_planned hp
  obtain ⟨table', types', htable', ⟨htypes', hes⟩, -⟩ := exists_planned hq
  obtain rfl := Except.ok.inj (htable.symm.trans htable')
  have hids := (PlanSet.collisionFree hp).distinct
  rw [map_id_of_planAll hds] at hids
  have hids' := (declaredIds_perm h).nodup_iff.mp hids
  obtain ⟨ds', hds', hperm⟩ := mapM_perm (listing_perm h) hds
  rw [mapM_congr fun sd _ => DeclarationPlan.ofDeclaration_perm hids h htypes htypes'
    ⟨Recursion.mem_ids_of_perm hnames h hids,
      Recursion.mem_ids_of_perm (hnames.perm h) h.symm hids'⟩] at hds'
  obtain rfl := Except.ok.inj (hds'.symm.trans hes)
  exact hperm

/-- Schemas compile in every order or in none. If no two constructors under one prefix share their
name, the order does not matter to the plan of any declaration, and it only changes places. -/
theorem compile_perm (h : schemas.Perm others) (capabilities : Capabilities) :
    ((∃ p, compile schemas capabilities = .ok p) ↔ ∃ q, compile others capabilities = .ok q) ∧
    (DistinctNames schemas → ∀ p q, compile schemas capabilities = .ok p →
      compile others capabilities = .ok q →
        p.declarations.Perm q.declarations ∧ ∀ id, p.declaration? id = q.declaration? id) := by
  refine ⟨⟨?_, ?_⟩, fun hnames p q hp hq => ?_⟩
  · rintro ⟨p, hp⟩
    exact exists_compile_of_perm h hp
  · rintro ⟨q, hq⟩
    exact exists_compile_of_perm h.symm hq
  · have hperm := declarations_perm hnames h hp hq
    exact ⟨hperm, Association.find?_eq_of_perm (PlanSet.collisionFree hp).distinct hperm⟩

/-- Colors keep their plans when the schemas are turned around. -/
theorem compile_perm_colors :
    ∃ q, compile Schema.colors.reverse {} = .ok q ∧
      PlanSet.colors.declarations.Perm q.declarations ∧
      (q.declaration? 3).map (·.role) = some (.enumMember "Blue" "BLUE") := by
  obtain ⟨hiff, hsame⟩ := compile_perm Schema.colors.reverse_perm.symm {}
  obtain ⟨q, hq⟩ := hiff.mp ⟨_, compile_colors⟩
  obtain ⟨hperm, hfound⟩ := hsame (by decide) _ q compile_colors hq
  refine ⟨q, hq, hperm, ?_⟩
  rw [← hfound]
  decide

end

end TypeLang
