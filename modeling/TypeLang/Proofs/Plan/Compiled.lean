import Mathlib.Data.List.Forall2
import Mathlib.Data.List.Nodup
import TypeLang.Codec.Reference
import TypeLang.Proofs.Association
import TypeLang.Proofs.Outcome

/-!
# What compiling guarantees

A plan set comes out of `compile` step by step: `compile_eq_ok` names the steps, and
`ofDeclarations_eq_ok` says what the dispatch table of a list of declarations is. Looking something
up in a compiled plan set therefore always ends at one of its declarations.
-/

namespace TypeLang

namespace DispatchTable

def reservedIds : List UInt32 :=
  [Wire.boolTrueId, Wire.boolFalseId, Wire.vectorId]

/-- The entry of the declaration at position `index`; a built-in one has none. -/
def entryOf (d : DeclarationPlan) (index : Nat) : Option (UInt32 × DispatchEntry) :=
  if d.role = .builtin then none else some (d.id, .declaration d.schema d.name index)

def entriesFrom (start : Nat) (ds : List DeclarationPlan) : List (UInt32 × DispatchEntry) :=
  (ds.zipIdx start).filterMap fun (d, index) => entryOf d index

theorem mem_entriesFrom {start index : Nat} {ds : List DeclarationPlan} {id : UInt32}
    {schema name : String} (h : (id, .declaration schema name index) ∈ entriesFrom start ds) :
    ∃ d, ds[index - start]? = some d ∧ start ≤ index ∧ d.id = id ∧ d.role ≠ .builtin := by
  simp only [entriesFrom, List.mem_filterMap, Prod.exists, entryOf] at h
  obtain ⟨d, position, hmem, hentry⟩ := h
  rw [List.mem_zipIdx_iff_le_and_getElem?_sub] at hmem
  split at hentry
  · cases hentry
  · rename_i hrole
    simp only [Option.some.injEq, Prod.mk.injEq, DispatchEntry.declaration.injEq] at hentry
    obtain ⟨hid, -, -, rfl⟩ := hentry
    exact ⟨d, hmem.2, hmem.1, hid, hrole⟩

theorem add_eq_ok {t t' : DispatchTable} {earlier : List DeclarationPlan} {d : DeclarationPlan}
    {index : Nat} (h : t.add earlier d index = .ok t') :
    (∀ e ∈ earlier, e.id ≠ d.id) ∧
      (d.role ≠ .builtin → (t.get? d.id).bind (·.reservedName?) = none) ∧
      t'.entries = t.entries ++ (entryOf d index).toList := by
  unfold add at h
  split at h
  · cases h
  · rename_i hfind
    refine ⟨by simpa using hfind, ?_⟩
    split at h
    · rename_i hrole
      cases h
      simp [entryOf, hrole]
    · rename_i hrole
      split at h
      · cases h
      · rename_i hreserved
        cases h
        exact ⟨fun _ => hreserved, by simp [entryOf, hrole]⟩

theorem addAll_eq_ok {t t' : DispatchTable} {earlier ds : List DeclarationPlan}
    (h : t.addAll earlier ds = .ok t') (hdistinct : (earlier.map (·.id)).Nodup) :
    t'.entries = t.entries ++ entriesFrom earlier.length ds ∧
      ((earlier.reverse ++ ds).map (·.id)).Nodup := by
  induction ds generalizing t earlier with
  | nil =>
      cases h
      simpa [entriesFrom, List.nodup_reverse] using hdistinct
  | cons d ds ih =>
      unfold addAll at h
      obtain ⟨next, hadd, h⟩ := bind_eq_ok.mp h
      obtain ⟨hfresh, -, hentries⟩ := add_eq_ok hadd
      have hdistinct' : ((d :: earlier).map (·.id)).Nodup := by
        rw [List.map_cons, List.nodup_cons]
        refine ⟨?_, hdistinct⟩
        intro hmem
        obtain ⟨e, he, hid⟩ := List.mem_map.mp hmem
        exact hfresh e he hid
      obtain ⟨hrest, hnodup⟩ := ih h hdistinct'
      constructor
      · rw [hrest, hentries, List.append_assoc]
        congr 1
        simp only [entriesFrom, List.length_cons, List.zipIdx_cons, List.filterMap_cons]
        cases entryOf d earlier.length <;> rfl
      · simpa using hnodup

/-- The table of declarations holds the reserved entries and behind them those of the declarations.
No two declarations share an identifier. -/
theorem ofDeclarations_eq_ok {ds : List DeclarationPlan} {t : DispatchTable}
    (h : ofDeclarations ds = .ok t) :
    t.entries = reserved.entries ++ entriesFrom 0 ds ∧ (ds.map (·.id)).Nodup := by
  have hall : reserved.addAll [] ds = .ok t := h
  simpa using addAll_eq_ok hall List.nodup_nil

theorem get?_eq_declaration {ds : List DeclarationPlan} {t : DispatchTable}
    (h : ofDeclarations ds = .ok t) {id : UInt32} {schema name : String} {index : Nat}
    (hget : t.get? id = some (.declaration schema name index)) :
    ∃ d, ds[index]? = some d ∧ d.id = id ∧ d.role ≠ .builtin := by
  have hmem := Association.mem_of_lookup hget
  rw [(ofDeclarations_eq_ok h).1, List.mem_append] at hmem
  rcases hmem with hreserved | hentry
  · simp [reserved] at hreserved
  · obtain ⟨d, hd, -, hid, hrole⟩ := mem_entriesFrom hentry
    exact ⟨d, hd, hid, hrole⟩

theorem get?_ne_declaration {ds : List DeclarationPlan} {t : DispatchTable}
    (h : ofDeclarations ds = .ok t) {id : UInt32} (hid : id ∈ reservedIds) (schema name : String)
    (index : Nat) : t.get? id ≠ some (.declaration schema name index) := by
  unfold get?
  rw [(ofDeclarations_eq_ok h).1]
  simp only [reservedIds, List.mem_cons, List.not_mem_nil, or_false] at hid
  rcases hid with rfl | rfl | rfl <;> intro hget <;> cases hget

end DispatchTable

theorem compile_eq_ok {schemas : List Schema} {capabilities : Capabilities} {p : PlanSet}
    (h : compile schemas capabilities = .ok p) :
    ∃ table types,
      CapabilityTable.ofCapabilities capabilities = .ok table ∧
      RepresentedTypes.ofGroups (TypeGroup.ofSchemas schemas) = .ok types ∧
      (schemas.flatMap fun s => s.declarations.map (s, ·)).mapM (fun (s, d) =>
        DeclarationPlan.ofDeclaration types table (Recursion.ids (TypeGroup.ofSchemas schemas)) s d)
        = .ok p.declarations ∧
      DispatchTable.ofDeclarations p.declarations = .ok p.dispatch ∧
      p.types = types.map (TypePlan.ofRepresented schemas table) ∧
      p.schemas = schemas.map SchemaSummary.ofSchema := by
  unfold compile at h
  obtain ⟨table, htable, h⟩ := bind_eq_ok.mp h
  obtain ⟨types, htypes, h⟩ := bind_eq_ok.mp h
  obtain ⟨declarations, hdeclarations, h⟩ := bind_eq_ok.mp h
  obtain ⟨dispatch, hdispatch, h⟩ := bind_eq_ok.mp h
  cases h
  exact ⟨table, types, htable, htypes, hdeclarations, hdispatch, rfl, rfl⟩

namespace DeclarationPlan

theorem ofDeclaration_eq_ok {types : RepresentedTypes} {table : CapabilityTable}
    {recursive : List UInt32} {s : Schema} {decl : Declaration} {d : DeclarationPlan}
    (h : ofDeclaration types table recursive s decl = .ok d) :
    Layout.ofDeclaration decl = .ok d.layout ∧ d.id = decl.id ∧ d.name = decl.fullName ∧
      d.category = decl.category ∧ d.schemaPrefix = s.config.namespacePrefix := by
  unfold ofDeclaration at h
  obtain ⟨layout, hlayout, h⟩ := bind_eq_ok.mp h
  cases h
  exact ⟨hlayout, rfl, rfl, rfl, rfl⟩

end DeclarationPlan

theorem exists_mem_of_forall₂ {α β : Type} {R : α → β → Prop} {xs : List α} {ys : List β}
    (h : List.Forall₂ R xs ys) {y : β} (hy : y ∈ ys) : ∃ x ∈ xs, R x y := by
  induction h with
  | nil => cases hy
  | cons hR _ ih =>
      rcases List.mem_cons.mp hy with rfl | hy
      · exact ⟨_, List.mem_cons_self, hR⟩
      · obtain ⟨x, hx, hxy⟩ := ih hy
        exact ⟨x, List.mem_cons_of_mem _ hx, hxy⟩

namespace PlanSet

variable {schemas : List Schema} {capabilities : Capabilities} {p : PlanSet} {d : DeclarationPlan}
  {id : UInt32}

theorem exists_declaration (hp : compile schemas capabilities = .ok p) (hd : d ∈ p.declarations) :
    ∃ s ∈ schemas, ∃ decl ∈ s.declarations, Layout.ofDeclaration decl = .ok d.layout := by
  obtain ⟨table, types, -, -, hdeclarations, -⟩ := compile_eq_ok hp
  obtain ⟨⟨s, decl⟩, hmem, hplan⟩ :=
    exists_mem_of_forall₂ (mapM_eq_ok.mp hdeclarations) hd
  simp only [List.mem_flatMap, List.mem_map, Prod.mk.injEq] at hmem
  obtain ⟨s', hs, decl', hdecl, rfl, rfl⟩ := hmem
  exact ⟨s', hs, decl', hdecl, (DeclarationPlan.ofDeclaration_eq_ok hplan).1⟩

theorem eq_of_id_eq (hp : compile schemas capabilities = .ok p) {e : DeclarationPlan}
    (hd : d ∈ p.declarations) (he : e ∈ p.declarations) (hid : d.id = e.id) : d = e := by
  obtain ⟨-, -, -, -, -, hdispatch, -⟩ := compile_eq_ok hp
  exact List.inj_on_of_nodup_map (DispatchTable.ofDeclarations_eq_ok hdispatch).2 hd he hid

theorem mem_of_dispatched (h : p.dispatched id = .ok d) : d ∈ p.declarations := by
  unfold dispatched at h
  split at h
  · split at h
    · rename_i found
      cases h
      exact List.mem_of_getElem? found
    · cases h
  · cases h

/-- Identifiers are dispatched to the declarations that have them, and the reserved ones to none. -/
theorem id_of_dispatched (hp : compile schemas capabilities = .ok p)
    (h : p.dispatched id = .ok d) : d.id = id ∧ id ∉ DispatchTable.reservedIds := by
  obtain ⟨-, -, -, -, -, hdispatch, -⟩ := compile_eq_ok hp
  unfold dispatched at h
  split at h
  · rename_i schema name index hget
    constructor
    · obtain ⟨found, hfound, hid, -⟩ := DispatchTable.get?_eq_declaration hdispatch hget
      rw [hfound] at h
      cases h
      exact hid
    · intro hreserved
      exact DispatchTable.get?_ne_declaration hdispatch hreserved _ _ _ hget
  · cases h

theorem dispatched_of_typed {site : Site} {name : QualifiedName}
    (h : p.typed site name id = .ok d) : p.dispatched id = .ok d := by
  unfold typed at h
  obtain ⟨found, hfound, h⟩ := bind_eq_ok.mp h
  simp only at h
  split at h
  · cases h
    exact hfound
  · cases h

theorem mem_of_bare {schemaPrefix : String} {name : QualifiedName}
    (h : p.bare schemaPrefix name = .ok d) : d ∈ p.declarations := by
  unfold bare at h
  simp only at h
  split at h
  · rename_i found hfound
    cases h
    split at hfound
    · have hmem := List.mem_of_find?_eq_some hfound
      exact List.mem_reverse.mp hmem
    · unfold soleConstructor? at hfound
      split at hfound
      · rename_i only _ _
        cases hdispatched : p.dispatched only with
        | ok sole =>
            rw [hdispatched] at hfound
            cases hfound
            exact mem_of_dispatched hdispatched
        | error e =>
            rw [hdispatched] at hfound
            cases hfound
      · cases hfound
  · cases h

end PlanSet

/-! ## An example -/

def Flag.lowest : Flag := ⟨"flags", 0⟩

/-- A person has a home, which is written without an identifier of its own, a name that may be left
out, and the bit of being away. -/
def Schema.people : Schema where
  config := {}
  layer := none
  constructors := [
    ⟨.constructor, 1, ⟨[], "place"⟩,
      [⟨"x", .primitive .int⟩, ⟨"y", .primitive .int⟩], .named ⟨[], "Place"⟩ false⟩,
    ⟨.constructor, 2, ⟨[], "person"⟩,
      [⟨"flags", .primitive .flags⟩, ⟨"home", .named ⟨[], "place"⟩ true⟩,
        ⟨"name", .flag .lowest (.primitive .string)⟩,
        ⟨"away", .flag ⟨"flags", 1⟩ (.primitive .trueLiteral)⟩], .named ⟨[], "Person"⟩ false⟩]
  methods := []

def PlanSet.people : PlanSet :=
  (compile [.people] {}).toOption.getD default

theorem compile_people : compile [.people] {} = .ok .people := by
  rfl

def PlanSet.person : DeclarationPlan :=
  people.declarations.getD 1 default

theorem PlanSet.person_mem : person ∈ people.declarations := by
  decide +kernel

end TypeLang
