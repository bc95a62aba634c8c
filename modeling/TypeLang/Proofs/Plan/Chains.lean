import TypeLang.Proofs.Plan.Reordering

/-!
# Chains of references

What it means for a constructor to lead back to its own type is said here of the schemas alone. A
name in a parameter, under whatever vectors and flags, stands for a type; a declaration refers to
the types that its parameters name; and from a type a chain goes on with any of its constructors. If
names are distinct, the plans that are marked as recursive are those of the constructors from which
a chain leads back to the type they construct (`recursive_iff_returns`).
-/

namespace TypeLang

inductive TypeExpr.Mentions (name : QualifiedName) : TypeExpr → Prop
  | named (bare : Bool) : Mentions name (.named name bare)
  | vector {inner : TypeExpr} (boxed : Bool) (inside : Mentions name inner) :
      Mentions name (.vector inner boxed)
  | flag {inner : TypeExpr} (flag : Flag) (inside : Mentions name inner) :
      Mentions name (.flag flag inner)

theorem TypeExpr.mem_names_iff {name : QualifiedName} {t : TypeExpr} :
    name ∈ t.names ↔ t.Mentions name := by
  constructor
  · intro h
    induction t with
    | primitive kind => cases h
    | vector inner boxed ih => exact .vector boxed (ih h)
    | flag flag inner ih => exact .flag flag (ih h)
    | var name => cases h
    | named other bare =>
        obtain rfl := List.mem_singleton.mp h
        exact .named bare
  · intro h
    induction h with
    | named bare => exact List.mem_singleton_self name
    | vector boxed _ ih => exact ih
    | flag flag _ ih => exact ih

namespace Schema

/-! ## References between declarations and types -/

def Constructs (schemas : List Schema) (key : TypeKey) (d : Declaration) : Prop :=
  ∃ s ∈ schemas, d ∈ s.constructors ∧
    TypeKey.ofResult? s.config.namespacePrefix d.result = some key

/-- The type that a name stands for in schemas with a prefix. A lowercase name is that of a
constructor, any other that of the type itself. -/
inductive Denotes (schemas : List Schema) (schemaPrefix : String) (name : QualifiedName) :
    TypeKey → Prop
  | constructor {key : TypeKey} {d : Declaration} (lowercase : name.isLowercase = true)
      (place : key.schemaPrefix = schemaPrefix) (constructs : Constructs schemas key d)
      (same : d.fullName = name.fullName) : Denotes schemas schemaPrefix name key
  | type (uppercase : name.isLowercase = false) :
      Denotes schemas schemaPrefix name (TypeKey.ofName schemaPrefix name)

def RefersTo (schemas : List Schema) (schemaPrefix : String) (d : Declaration) (key : TypeKey) :
    Prop :=
  ∃ q ∈ d.params, ∃ name, q.type.Mentions name ∧ Denotes schemas schemaPrefix name key

/-- One or more references lead from a declaration to the type `target`. Behind each but the last
the chain goes on with a constructor of the type that is referred to. -/
inductive Chain (schemas : List Schema) (schemaPrefix : String) (target : TypeKey) :
    Declaration → Prop
  | last {d : Declaration} (refers : RefersTo schemas schemaPrefix d target) :
      Chain schemas schemaPrefix target d
  | step {d next : Declaration} {key : TypeKey} (refers : RefersTo schemas schemaPrefix d key)
      (constructs : Constructs schemas key next) (rest : Chain schemas schemaPrefix target next) :
      Chain schemas schemaPrefix target d

def Returns (schemas : List Schema) (s : Schema) (d : Declaration) : Prop :=
  d ∈ s.constructors ∧ ∃ key, TypeKey.ofResult? s.config.namespacePrefix d.result = some key ∧
    Chain schemas s.config.namespacePrefix key d

end Schema

/-! ## Groups and chains -/

namespace Recursion

open Relation (ReflTransGen)
open Schema TypeGroup

variable {schemas : List Schema} {schemaPrefix : String} {key target : TypeKey} {d : Declaration}

theorem constructs_iff :
    Constructs schemas key d ↔ ∃ g ∈ ofSchemas schemas, g.key = key ∧ d ∈ g.constructors := by
  constructor
  · rintro ⟨s, hs, hd, hkey⟩
    have hmem : (key, d) ∈ schemas.flatMap members :=
      List.mem_flatMap.mpr ⟨s, hs, mem_members_iff.mpr ⟨hd, hkey⟩⟩
    have hg : ⟨key, ((schemas.flatMap members).filter (·.1 == key)).map (·.2)⟩ ∈
        ofSchemas schemas :=
      mem_ofSchemas_iff.mpr ⟨⟨d, hmem⟩, rfl⟩
    exact ⟨_, hg, rfl, (mem_constructors_iff hg).mpr hmem⟩
  · rintro ⟨g, hg, rfl, hd⟩
    exact exists_schema_of_mem hg hd

section

variable (hnames : DistinctNames schemas)

include hnames

theorem denotes_iff {name : QualifiedName} :
    (if name.isLowercase then constructorType? (ofSchemas schemas) schemaPrefix name.fullName
      else some (TypeKey.ofName schemaPrefix name)) = some key ↔
    Denotes schemas schemaPrefix name key := by
  by_cases hlower : name.isLowercase = true
  · rw [if_pos hlower, constructorType?_eq_some_iff hnames]
    constructor
    · rintro ⟨hplace, g, hg, hkey, e, he, hname⟩
      exact .constructor hlower hplace (constructs_iff.mpr ⟨g, hg, hkey, he⟩) hname
    · intro h
      cases h with
      | constructor _ hplace hconstructs hname =>
          obtain ⟨g, hg, hkey, he⟩ := constructs_iff.mp hconstructs
          exact ⟨hplace, g, hg, hkey, _, he, hname⟩
      | type hupper => rw [hlower] at hupper; cases hupper
  · rw [if_neg hlower]
    constructor
    · intro h
      cases h
      exact .type (by simpa using hlower)
    · intro h
      cases h with
      | constructor hlower' => exact absurd hlower' hlower
      | type => rfl

theorem mem_references_iff :
    key ∈ references (ofSchemas schemas) schemaPrefix d ↔ RefersTo schemas schemaPrefix d key := by
  simp only [references, RefersTo, List.mem_filterMap, List.mem_flatMap, denotes_iff hnames,
    TypeExpr.mem_names_iff]
  constructor
  · rintro ⟨name, ⟨q, hq, hname⟩, hkey⟩
    exact ⟨q, hq, name, hname, hkey⟩
  · rintro ⟨q, hq, name, hname, hkey⟩
    exact ⟨name, ⟨q, hq, hname⟩, hkey⟩

theorem schemaPrefix_of_refersTo (h : RefersTo schemas schemaPrefix d key) :
    key.schemaPrefix = schemaPrefix :=
  schemaPrefix_of_mem_references ((mem_references_iff hnames).mpr h)

theorem leadsBack_iff_chain :
    LeadsBack (ofSchemas schemas) target d ↔ Chain schemas target.schemaPrefix target d := by
  constructor
  · rintro ⟨named, hnamed, hchain⟩
    rw [mem_references_iff hnames] at hnamed
    induction hchain using ReflTransGen.head_induction_on generalizing d with
    | refl => exact .last hnamed
    | head hrefers _ ih =>
        obtain ⟨g, hg, rfl, e, he, hnext⟩ := hrefers
        rw [mem_references_iff hnames, schemaPrefix_of_refersTo hnames hnamed] at hnext
        exact .step hnamed (constructs_iff.mpr ⟨g, hg, rfl, he⟩) (ih hnext)
  · intro hchain
    induction hchain with
    | last hrefers => exact ⟨target, (mem_references_iff hnames).mpr hrefers, .refl⟩
    | @step d next key hrefers hconstructs _ ih =>
        obtain ⟨named, hnamed, hrest⟩ := ih
        obtain ⟨g, hg, rfl, he⟩ := constructs_iff.mp hconstructs
        rw [← schemaPrefix_of_refersTo hnames hrefers] at hnamed
        exact ⟨g.key, (mem_references_iff hnames).mpr hrefers,
          .head ⟨g, hg, rfl, next, he, hnamed⟩ hrest⟩

end

end Recursion

/-! ## Marks -/

namespace PlanSet

open Schema

variable {schemas : List Schema} {capabilities : Capabilities} {p : PlanSet}

/-- An identifier is that of a constructor that leads back to its type exactly if its declaration
is. -/
theorem mem_ids_iff_returns (hids : (declaredIds schemas).Nodup) (hnames : DistinctNames schemas)
    {s : Schema} {d : Declaration} (hmem : (s, d) ∈ listing schemas) :
    d.id ∈ Recursion.ids (TypeGroup.ofSchemas schemas) ↔ Returns schemas s d := by
  rw [Recursion.mem_ids_iff (TypeGroup.nodup_keys schemas) (Recursion.distinctIds_ofSchemas hids)]
  constructor
  · rintro ⟨g, hg, e, he, hid, hback⟩
    obtain ⟨t, ht, hdeclared, hkey⟩ := TypeGroup.exists_schema_of_mem hg he
    have hlisted : (t, e) ∈ listing schemas :=
      mem_listing.mpr ⟨ht, List.mem_append_left _ hdeclared⟩
    have hsame : (t, e) = (s, d) := List.inj_on_of_nodup_map hids hlisted hmem hid
    cases hsame
    rw [Recursion.leadsBack_iff_chain hnames, TypeGroup.schemaPrefix_of_ofResult? hkey] at hback
    exact ⟨hdeclared, g.key, hkey, hback⟩
  · rintro ⟨hdeclared, key, hkey, hchain⟩
    have hs : s ∈ schemas := (mem_listing.mp hmem).1
    obtain ⟨g, hg, rfl, hd⟩ := Recursion.constructs_iff.mp ⟨s, hs, hdeclared, hkey⟩
    rw [← TypeGroup.schemaPrefix_of_ofResult? hkey] at hchain
    exact ⟨g, hg, d, hd, rfl, (Recursion.leadsBack_iff_chain hnames).mpr hchain⟩

/-- The plans stand in the order of the declarations. A plan is marked as recursive if and only if
its declaration constructs a type and a chain of references leads from it back to this type. -/
theorem recursive_iff_returns (hp : compile schemas capabilities = .ok p)
    (hnames : DistinctNames schemas) :
    List.Forall₂ (fun (sd : Schema × Declaration) d =>
        d.id = sd.2.id ∧ (d.recursive = true ↔ Returns schemas sd.1 sd.2))
      (listing schemas) p.declarations := by
  obtain ⟨table, types, -, ⟨-, hds⟩, -⟩ := exists_planned hp
  have hids := (PlanSet.collisionFree hp).distinct
  rw [map_id_of_planAll hds] at hids
  have hall := (List.forall₂_and_left _ _).mpr
    ⟨fun sd (hsd : sd ∈ listing schemas) => hsd, mapM_eq_ok.mp hds⟩
  apply hall.imp
  rintro ⟨s, decl⟩ d ⟨hmem, hplan⟩
  obtain ⟨layout, -, hplan⟩ := bind_eq_ok.mp hplan
  cases hplan
  refine ⟨rfl, ?_⟩
  rw [← mem_ids_iff_returns hids hnames hmem]
  exact List.contains_iff_mem

end PlanSet

/-! ## Pages -/

namespace Declaration

def listBlock : Declaration :=
  ⟨.constructor, 1, ⟨[], "listBlock"⟩, [⟨"items", .vector (.named ⟨[], "Item"⟩ false) true⟩],
    .named ⟨[], "Block"⟩ false⟩

def textBlock : Declaration :=
  ⟨.constructor, 2, ⟨[], "textBlock"⟩, [⟨"text", .primitive .string⟩], .named ⟨[], "Block"⟩ false⟩

def item : Declaration :=
  ⟨.constructor, 3, ⟨[], "item"⟩, [⟨"flags", .primitive .flags⟩,
    ⟨"lists", .flag .lowest (.vector (.named ⟨[], "listBlock"⟩ true) false)⟩],
    .named ⟨[], "Item"⟩ false⟩

end Declaration

def Schema.pages : Schema where
  config := {}
  layer := none
  constructors := [.listBlock, .textBlock, .item]
  methods := []

def PlanSet.pages : PlanSet :=
  (compile [.pages] {}).toOption.getD default

theorem compile_pages : compile [.pages] {} = .ok .pages := by
  rfl

namespace PlanSet

open Schema

/-- Lists are marked, for their items name lists again, and texts are not. -/
theorem recursive_iff_returns_pages :
    DistinctNames [.pages] ∧ pages.declarations.map (·.recursive) = [true, false, true] ∧
      Returns [.pages] .pages .listBlock ∧ ¬Returns [.pages] .pages .textBlock ∧
      Returns [.pages] .pages .item := by
  have hnames : DistinctNames [.pages] := by decide
  have hmarks : pages.declarations.map (·.recursive) = [true, false, true] := by decide +kernel
  have hplans := recursive_iff_returns compile_pages hnames
  have hreturns : List.Forall₂ (fun (sd : Schema × Declaration) mark =>
      mark = true ↔ Returns [.pages] sd.1 sd.2) (listing [.pages])
      (pages.declarations.map (·.recursive)) :=
    List.forall₂_map_right_iff.mpr (hplans.imp fun _ _ h => h.2)
  have hlisting : listing [.pages] =
      [(.pages, .listBlock), (.pages, .textBlock), (.pages, .item)] := rfl
  rw [hmarks, hlisting] at hreturns
  obtain ⟨hlist, hreturns⟩ := List.forall₂_cons.mp hreturns
  obtain ⟨htext, hreturns⟩ := List.forall₂_cons.mp hreturns
  obtain ⟨hitem, -⟩ := List.forall₂_cons.mp hreturns
  exact ⟨hnames, hmarks, hlist.mp rfl, fun h => absurd (htext.mpr h) (by decide), hitem.mp rfl⟩

end PlanSet

end TypeLang
