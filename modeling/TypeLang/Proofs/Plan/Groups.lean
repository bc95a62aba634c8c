import TypeLang.Proofs.Schema.Parsed

/-!
# Groups of constructors

A type has a group if some constructor produces it, and the group holds all constructors that do, in
the order of their schemas. Every constructor of a group comes from a schema with the prefix of the
type. Where every declaration stands in the list of its category, the groups go by what
`Schema.typeKeyOf?` gives for the declarations (`ofSchemas_eq`).
-/

namespace TypeLang

theorem nodup_eraseDups {α : Type} [BEq α] [LawfulBEq α] (xs : List α) : xs.eraseDups.Nodup := by
  match xs with
  | [] => exact List.nodup_nil
  | x :: xs =>
      have hshorter : (xs.filter fun y => !y == x).length ≤ xs.length := List.length_filter_le _ _
      have hrest := nodup_eraseDups (xs.filter fun y => !y == x)
      rw [List.eraseDups_cons, List.nodup_cons, List.mem_eraseDups]
      exact ⟨by simp, hrest⟩
termination_by xs.length

theorem map_snd_filter_filterMap {α β κ : Type} [BEq κ] (key? : α → Option κ) (value : α → β)
    (xs : List α) (key : κ) :
    ((xs.filterMap fun a => (key? a).map (·, value a)).filter (·.1 == key)).map (·.2) =
      (xs.filter fun a => key? a == some key).map value := by
  induction xs with
  | nil => rfl
  | cons a xs ih =>
      cases hkey : key? a with
      | none => simpa [hkey] using ih
      | some own => by_cases hown : own == key <;> simpa [hkey, hown] using ih

namespace Schema

/-- The type that a declaration constructs. A method has none, whatever it results in. -/
def typeKeyOf? (s : Schema) (d : Declaration) : Option TypeKey :=
  match d.category with
  | .method => none
  | .constructor => TypeKey.ofResult? s.config.namespacePrefix d.result

def listing (schemas : List Schema) : List (Schema × Declaration) :=
  schemas.flatMap fun s => s.declarations.map (s, ·)

def declaredIds (schemas : List Schema) : List UInt32 :=
  (listing schemas).map (·.2.id)

def typeKeys (schemas : List Schema) : List TypeKey :=
  ((listing schemas).filterMap fun (s, d) => s.typeKeyOf? d).eraseDups

def constructorsOf (schemas : List Schema) (key : TypeKey) : List Declaration :=
  ((listing schemas).filter fun (s, d) => s.typeKeyOf? d == some key).map (·.2)

variable {schemas : List Schema}

theorem mem_listing {s : Schema} {d : Declaration} :
    (s, d) ∈ listing schemas ↔ s ∈ schemas ∧ d ∈ s.declarations := by
  simp only [listing, List.mem_flatMap, List.mem_map, Prod.mk.injEq]
  constructor
  · rintro ⟨_, hs, _, hd, rfl, rfl⟩
    exact ⟨hs, hd⟩
  · rintro ⟨hs, hd⟩
    exact ⟨s, hs, d, hd, rfl, rfl⟩

theorem typeKeyOf?_eq_some_iff {s : Schema} {d : Declaration} {key : TypeKey} :
    s.typeKeyOf? d = some key ↔
      d.category = .constructor ∧
        TypeKey.ofResult? s.config.namespacePrefix d.result = some key := by
  rw [typeKeyOf?]
  cases d.category <;> simp

theorem mem_typeKeys {s : Schema} {d : Declaration} {key : TypeKey} (h : (s, d) ∈ listing schemas)
    (hkey : s.typeKeyOf? d = some key) : key ∈ typeKeys schemas := by
  rw [typeKeys, List.mem_eraseDups, List.mem_filterMap]
  exact ⟨(s, d), h, hkey⟩

end Schema

namespace TypeGroup

open Schema

variable {schemas : List Schema} {s : Schema} {g : TypeGroup} {key : TypeKey} {d : Declaration}

theorem schemaPrefix_of_ofResult? {schemaPrefix : String} {result : TypeExpr}
    (h : TypeKey.ofResult? schemaPrefix result = some key) : key.schemaPrefix = schemaPrefix := by
  unfold TypeKey.ofResult? at h
  split at h
  · split at h
    · cases h
    · cases h
      rfl
  · cases h
    rfl
  · cases h

theorem mem_members_iff :
    (key, d) ∈ members s ↔
      d ∈ s.constructors ∧ TypeKey.ofResult? s.config.namespacePrefix d.result = some key := by
  simp only [members, List.mem_filterMap, Option.map_eq_some_iff, Prod.mk.injEq]
  constructor
  · rintro ⟨_, hd, _, hkey, rfl, rfl⟩
    exact ⟨hd, hkey⟩
  · rintro ⟨hd, hkey⟩
    exact ⟨d, hd, key, hkey, rfl, rfl⟩

theorem map_snd_members_sublist (s : Schema) :
    ((members s).map (·.2)).Sublist s.declarations := by
  have hconstructors : ((members s).map (·.2)).Sublist s.constructors := by
    rw [members, List.map_filterMap]
    induction s.constructors with
    | nil => exact .slnil
    | cons d rest ih =>
        rw [List.filterMap_cons]
        cases TypeKey.ofResult? s.config.namespacePrefix d.result with
        | none => exact ih.cons d
        | some key => exact ih.cons_cons d
  exact hconstructors.trans (List.sublist_append_left ..)

theorem mem_ofSchemas_iff : g ∈ ofSchemas schemas ↔
    (∃ d, (g.key, d) ∈ schemas.flatMap members) ∧
      g.constructors = ((schemas.flatMap members).filter (·.1 == g.key)).map (·.2) := by
  obtain ⟨key, constructors⟩ := g
  simp only [ofSchemas, ofMembers, List.mem_map, List.mem_eraseDups, mk.injEq, Prod.exists]
  constructor
  · rintro ⟨_, ⟨_, d, hd, rfl⟩, rfl, rfl⟩
    exact ⟨⟨d, hd⟩, rfl⟩
  · rintro ⟨⟨d, hd⟩, rfl⟩
    exact ⟨key, ⟨key, d, hd, rfl⟩, rfl, rfl⟩

theorem nodup_keys (schemas : List Schema) : ((ofSchemas schemas).map (·.key)).Nodup := by
  rw [ofSchemas, ofMembers, List.map_map]
  simpa [Function.comp_def] using nodup_eraseDups _

section

variable (hg : g ∈ ofSchemas schemas)

include hg

theorem mem_constructors_iff : d ∈ g.constructors ↔ (g.key, d) ∈ schemas.flatMap members := by
  rw [(mem_ofSchemas_iff.mp hg).2]
  simp only [List.mem_map, List.mem_filter, beq_iff_eq, Prod.exists]
  constructor
  · rintro ⟨_, _, ⟨hd, rfl⟩, rfl⟩
    exact hd
  · exact fun hd => ⟨_, _, ⟨hd, rfl⟩, rfl⟩

theorem exists_mem_constructors : ∃ d, d ∈ g.constructors := by
  obtain ⟨d, hd⟩ := (mem_ofSchemas_iff.mp hg).1
  exact ⟨d, (mem_constructors_iff hg).mpr hd⟩

theorem exists_schema_of_mem (hd : d ∈ g.constructors) :
    ∃ s ∈ schemas, d ∈ s.constructors ∧
      TypeKey.ofResult? s.config.namespacePrefix d.result = some g.key := by
  obtain ⟨s, hs, hm⟩ := List.mem_flatMap.mp ((mem_constructors_iff hg).mp hd)
  exact ⟨s, hs, mem_members_iff.mp hm⟩

theorem constructors_sublist : g.constructors.Sublist ((listing schemas).map (·.2)) := by
  have hdeclared : ((schemas.flatMap members).map (·.2)).Sublist ((listing schemas).map (·.2)) := by
    rw [listing, List.map_flatMap, List.map_flatMap]
    refine List.Sublist.flatMap_right _ fun s _ => ?_
    rw [List.map_map]
    exact (map_snd_members_sublist s).trans (by simp [Function.comp_def])
  rw [(mem_ofSchemas_iff.mp hg).2]
  exact (List.filter_sublist.map _).trans hdeclared

/-- If no identifier is declared twice, none is that of two constructors of a group. -/
theorem nodup_ids (hids : (declaredIds schemas).Nodup) : (g.constructors.map (·.id)).Nodup := by
  have hsublist := (constructors_sublist hg).map (·.id)
  rw [List.map_map] at hsublist
  exact hsublist.nodup hids

theorem exists_listed_of_mem (hd : d ∈ g.constructors) : ∃ s, (s, d) ∈ listing schemas := by
  obtain ⟨⟨s, _⟩, hlisted, rfl⟩ := List.mem_map.mp ((constructors_sublist hg).subset hd)
  exact ⟨s, hlisted⟩

theorem mem_declaredIds (hd : d ∈ g.constructors) : d.id ∈ declaredIds schemas := by
  obtain ⟨s, hlisted⟩ := exists_listed_of_mem hg hd
  exact List.mem_map_of_mem hlisted

/-- If all methods are methods, then what constructs a type is in its group. -/
theorem mem_constructors_of_typeKeyOf?
    (hmethods : ∀ s ∈ schemas, ∀ d ∈ s.methods, d.category = .method)
    (hmem : (s, d) ∈ listing schemas) (hkey : s.typeKeyOf? d = some g.key) :
    d ∈ g.constructors := by
  obtain ⟨hs, hd⟩ := mem_listing.mp hmem
  obtain ⟨hcategory, hresult⟩ := typeKeyOf?_eq_some_iff.mp hkey
  rcases List.mem_append.mp hd with hconstructor | hmethod
  · rw [mem_constructors_iff hg, List.mem_flatMap]
    exact ⟨s, hs, mem_members_iff.mpr ⟨hconstructor, hresult⟩⟩
  · rw [hmethods s hs d hmethod] at hcategory
    cases hcategory

theorem exists_schema_of_group :
    ∃ s ∈ schemas, s.config.namespacePrefix = g.key.schemaPrefix := by
  obtain ⟨d, hd⟩ := exists_mem_constructors hg
  obtain ⟨s, hs, -, hkey⟩ := exists_schema_of_mem hg hd
  exact ⟨s, hs, (schemaPrefix_of_ofResult? hkey).symm⟩

end

theorem members_eq (hs : s.Filed) :
    members s = s.declarations.filterMap fun d => (s.typeKeyOf? d).map (·, d) := by
  -- Methods have no type, so that they may be gone through as well.
  have hmethods : (s.methods.filterMap fun d => (s.typeKeyOf? d).map (·, d)) = [] := by
    rw [List.filterMap_eq_nil_iff]
    intro d hd
    rw [typeKeyOf?, hs.methods d hd]
    rfl
  rw [Schema.declarations, List.filterMap_append, hmethods, List.append_nil]
  refine List.filterMap_congr fun d hd => ?_
  rw [typeKeyOf?, hs.constructors d hd]

theorem flatMap_members_eq (hs : ∀ s ∈ schemas, s.Filed) :
    schemas.flatMap members =
      (listing schemas).filterMap fun (s, d) => (s.typeKeyOf? d).map (·, d) := by
  rw [listing, List.filterMap_flatMap]
  refine List.flatMap_congr fun s hmem => ?_
  rw [members_eq (hs s hmem), List.filterMap_map]
  rfl

/-- There is a group for every type that is constructed, and it holds the constructors. -/
theorem ofSchemas_eq (hs : ∀ s ∈ schemas, s.Filed) :
    ofSchemas schemas = (typeKeys schemas).map fun key => ⟨key, constructorsOf schemas key⟩ := by
  rw [ofSchemas, ofMembers, flatMap_members_eq hs]
  have hkeys : ((listing schemas).filterMap fun (s, d) => (s.typeKeyOf? d).map (·, d)).map (·.1) =
      (listing schemas).filterMap fun (s, d) => s.typeKeyOf? d := by
    rw [List.map_filterMap]
    refine List.filterMap_congr fun (s, d) _ => ?_
    rw [Option.map_map]
    exact Option.map_id'
  rw [hkeys]
  refine List.map_congr_left fun key _ => ?_
  rw [constructorsOf]
  congr 1
  exact map_snd_filter_filterMap (fun (s, d) => s.typeKeyOf? d) (·.2) (listing schemas) key

end TypeGroup

end TypeLang
