import Mathlib
import TypeLang.Plan.Recursion
import TypeLang.Proofs.Association

/-!
# Recursion is reachability

The search for a type is depth-first and shares the visited identifiers among all its branches. That
it skips what is visited is justified by what it leaves behind: when a search comes to an end
without meeting the type, each constructor visited on the way is explored, that is, it does not name
the type and all constructors of the types that it names are visited too (`settles_of_search`). The
visited constructors are then closed under references, so that the type cannot be reached from them.
A constructor is therefore recursive exactly if a chain of references leads from it back to its own
type (`mem_ids_iff`).
-/

namespace TypeLang

/-! ## Loops that may stop -/

section

variable {σ α : Type} {step : σ → α → Option σ} {items : List α} {first last : σ}

theorem exists_of_foldlM_eq_none (h : items.foldlM step first = none) :
    ∃ a ∈ items, ∃ s, step s a = none := by
  induction items generalizing first with
  | nil => cases h
  | cons a items ih =>
      cases hstep : step first a with
      | none => exact ⟨a, List.mem_cons_self, first, hstep⟩
      | some next =>
          rw [List.foldlM_cons, hstep] at h
          obtain ⟨b, hb, s, hs⟩ := ih h
          exact ⟨b, List.mem_cons_of_mem _ hb, s, hs⟩

theorem foldlM_congr {other : σ → α → Option σ} (h : ∀ a ∈ items, ∀ s, step s a = other s a) :
    items.foldlM step first = items.foldlM other first := by
  induction items generalizing first with
  | nil => rfl
  | cons a items ih =>
      rw [List.foldlM_cons, List.foldlM_cons, h a List.mem_cons_self]
      congr 1
      funext next
      exact ih fun b hb => h b (List.mem_cons_of_mem _ hb)

/-- What every step of a loop keeps is kept by the loop, from the state behind any step on too. -/
theorem of_foldlM_eq_some {R : σ → σ → Prop} (hrefl : ∀ s, R s s)
    (htrans : ∀ {r s t}, R r s → R s t → R r t)
    (hstep : ∀ a ∈ items, ∀ s t, step s a = some t → R s t)
    (h : items.foldlM step first = some last) :
    R first last ∧ ∀ a ∈ items, ∃ s t, step s a = some t ∧ R t last := by
  induction items generalizing first with
  | nil =>
      cases h
      exact ⟨hrefl _, by simp⟩
  | cons a items ih =>
      rw [List.foldlM_cons, Option.bind_eq_bind, Option.bind_eq_some_iff] at h
      obtain ⟨next, hnext, hrest⟩ := h
      obtain ⟨hlast, hitems⟩ := ih (fun b hb => hstep b (List.mem_cons_of_mem _ hb)) hrest
      refine ⟨htrans (hstep a List.mem_cons_self _ _ hnext) hlast, fun b hb => ?_⟩
      rcases List.mem_cons.mp hb with rfl | hb
      · exact ⟨first, next, hnext, hlast⟩
      · exact hitems b hb

end

namespace Recursion

open Relation (ReflTransGen)

variable {groups : List TypeGroup} {schemaPrefix : String} {root key named : TypeKey}
  {current d : Declaration} {visited before after : List UInt32}

/-! ## Chains of references -/

theorem schemaPrefix_of_mem_references (h : named ∈ references groups schemaPrefix d) :
    named.schemaPrefix = schemaPrefix := by
  simp only [references, List.mem_filterMap] at h
  obtain ⟨name, -, h⟩ := h
  split at h
  · rw [constructorType?, Option.map_eq_some_iff] at h
    obtain ⟨g, hg, rfl⟩ := h
    have hfound := List.find?_some hg
    simp only [Bool.and_eq_true, beq_iff_eq] at hfound
    exact hfound.1
  · cases h
    rfl

theorem exists_group_of_mem_constructorsOf (h : d ∈ constructorsOf groups key) :
    ∃ g ∈ groups, g.key = key ∧ d ∈ g.constructors := by
  rw [constructorsOf, TypeGroup.find?] at h
  cases hg : groups.find? (·.key == key) with
  | none => simp [hg] at h
  | some g =>
      rw [hg] at h
      have hkey := List.find?_some hg
      exact ⟨g, List.mem_of_find?_eq_some hg, eq_of_beq hkey, h⟩

theorem constructorsOf_key (hkeys : (groups.map (·.key)).Nodup) {g : TypeGroup} (hg : g ∈ groups) :
    constructorsOf groups g.key = g.constructors := by
  have hfound : TypeGroup.find? groups g.key = some g := Association.find?_eq_some_of_mem hkeys hg
  rw [constructorsOf, hfound, Option.map_some, Option.getD_some]

theorem mem_declared {g : TypeGroup} (hg : g ∈ groups) (hd : d ∈ g.constructors) :
    d ∈ declared groups :=
  List.mem_flatMap.mpr ⟨g, hg, hd⟩

def Refers (groups : List TypeGroup) (key named : TypeKey) : Prop :=
  ∃ g ∈ groups, g.key = key ∧ ∃ d ∈ g.constructors, named ∈ references groups key.schemaPrefix d

/-- The parameters of a constructor lead to the type `key` of the same prefix, directly or through
constructors of other types. -/
def LeadsBack (groups : List TypeGroup) (key : TypeKey) (d : Declaration) : Prop :=
  ∃ named ∈ references groups key.schemaPrefix d, ReflTransGen (Refers groups) named key

theorem LeadsBack.through (hkey : key ∈ references groups root.schemaPrefix current)
    (hsub : d ∈ constructorsOf groups key) (h : LeadsBack groups root d) :
    LeadsBack groups root current := by
  obtain ⟨named, hnamed, hchain⟩ := h
  obtain ⟨g, hg, rfl, hd⟩ := exists_group_of_mem_constructorsOf hsub
  rw [← schemaPrefix_of_mem_references hkey] at hnamed
  exact ⟨g.key, hkey, .head ⟨g, hg, rfl, d, hd, hnamed⟩ hchain⟩

/-! ## One constructor of the search -/

def enter (groups : List TypeGroup) (root : TypeKey) {entered : List UInt32}
    (before : Visited entered) (sub : Declaration) : Option (Visited entered) :=
  if before.1.contains sub.id then some before
  else (search groups root sub before.1).map fun after =>
    ⟨after.1, fun _ hi => after.2 (List.mem_cons_of_mem _ (before.2 hi))⟩

/-- The search goes through the constructors of a type that is named, unless it is met there. -/
def follow (groups : List TypeGroup) (root : TypeKey) {entered : List UInt32}
    (before : Visited entered) (key : TypeKey) : Option (Visited entered) :=
  if key == root then none
  else (constructorsOf groups key).foldlM (enter groups root) before

theorem search_eq : search groups root current visited =
    (references groups root.schemaPrefix current).foldlM (follow groups root)
      ⟨current.id :: visited, fun _ => id⟩ := by
  rw [search]
  congr 1
  funext before key
  rw [follow]
  split
  · rfl
  · rw [List.foldlM_subtype (g := enter groups root), List.unattach_attach]
    intro before sub hsub
    rw [enter]
    split
    · rfl
    · cases search groups root sub before.1 <;> rfl

/-- A search goes by what the groups say of constructors and types of one prefix. -/
theorem search_congr {others : List TypeGroup}
    (hreferences : ∀ d, references groups root.schemaPrefix d =
      references others root.schemaPrefix d)
    (hconstructors : ∀ key : TypeKey, key.schemaPrefix = root.schemaPrefix →
      constructorsOf groups key = constructorsOf others key) :
    search groups root current visited = search others root current visited := by
  induction current, visited using search.induct groups with
  | case1 current visited ih =>
      rw [search_eq, search_eq, ← hreferences]
      refine foldlM_congr fun key hkey before => ?_
      rw [follow, follow, ← hconstructors key (schemaPrefix_of_mem_references hkey)]
      congr 1
      refine foldlM_congr fun sub hsub before => ?_
      rw [enter, enter]
      split
      · rfl
      · rename_i hnew
        rw [ih key before ⟨sub, hsub⟩ hnew]

/-! ## Meeting the type -/

theorem leadsBack_of_search_eq_none (h : search groups root current visited = none) :
    LeadsBack groups root current := by
  induction current, visited using search.induct groups with
  | case1 current visited ih =>
      rw [search_eq] at h
      obtain ⟨key, hkey, before, hmet⟩ := exists_of_foldlM_eq_none h
      rw [follow] at hmet
      split at hmet
      · rename_i hroot
        exact ⟨key, hkey, eq_of_beq hroot ▸ .refl⟩
      · obtain ⟨sub, hsub, before, hmet⟩ := exists_of_foldlM_eq_none hmet
        rw [enter] at hmet
        split at hmet
        · cases hmet
        · rename_i hnew
          rw [Option.map_eq_none_iff] at hmet
          exact .through hkey hsub (ih key before ⟨sub, hsub⟩ hnew hmet)

/-! ## Coming to an end -/

/-- The constructor does not name the type, and whatever constructors it names are visited. -/
def Explored (groups : List TypeGroup) (root : TypeKey) (visited : List UInt32) (d : Declaration) :
    Prop :=
  ∀ key ∈ references groups root.schemaPrefix d, key ≠ root ∧
    ∀ sub ∈ constructorsOf groups key, sub.id ∈ visited

theorem Explored.mono (h : Explored groups root before d) (hsubset : before ⊆ after) :
    Explored groups root after d :=
  fun key hkey => ⟨(h key hkey).1, fun sub hsub => hsubset ((h key hkey).2 sub hsub)⟩

/-- Between two states of the search all constructors that are newly visited are explored. -/
structure Settles (groups : List TypeGroup) (root : TypeKey) (before after : List UInt32) :
    Prop where
  subset : before ⊆ after
  explored : ∀ d ∈ declared groups, d.id ∈ after → d.id ∈ before ∨ Explored groups root after d

namespace Settles

theorem refl (visited : List UInt32) : Settles groups root visited visited :=
  ⟨fun _ => id, fun _ _ => .inl⟩

theorem trans (h : Settles groups root visited before) (h' : Settles groups root before after) :
    Settles groups root visited after where
  subset := fun _ hi => h'.subset (h.subset hi)
  explored d hd hi := by
    rcases h'.explored d hd hi with hbefore | hexplored
    · exact (h.explored d hd hbefore).imp_right (·.mono h'.subset)
    · exact .inr hexplored

end Settles

/-- Different constructors have different identifiers. -/
def DistinctIds (groups : List TypeGroup) : Prop :=
  ∀ d ∈ declared groups, ∀ e ∈ declared groups, d.id = e.id → d = e

section

variable {entered : List UInt32} {start last : Visited entered}
  {sub : Declaration}

theorem settles_of_enter
    (hsearch : sub.id ∉ start.1 → ∀ inner, search groups root sub start.1 = some inner →
      Settles groups root start.1 inner.1)
    (h : enter groups root start sub = some last) :
    Settles groups root start.1 last.1 ∧ sub.id ∈ last.1 := by
  rw [enter] at h
  split at h
  · rename_i hvisited
    cases h
    exact ⟨.refl _, List.contains_iff_mem.mp hvisited⟩
  · rename_i hnew
    obtain ⟨inner, hinner, rfl⟩ := Option.map_eq_some_iff.mp h
    rw [List.contains_iff_mem] at hnew
    exact ⟨hsearch hnew inner hinner, inner.2 List.mem_cons_self⟩

theorem settles_of_follow
    (henter : ∀ sub ∈ constructorsOf groups key, ∀ s t : Visited entered,
      enter groups root s sub = some t → Settles groups root s.1 t.1 ∧ sub.id ∈ t.1)
    (h : follow groups root start key = some last) :
    Settles groups root start.1 last.1 ∧ key ≠ root ∧
      ∀ sub ∈ constructorsOf groups key, sub.id ∈ last.1 := by
  rw [follow] at h
  split at h
  · cases h
  · rename_i hroot
    obtain ⟨hsettles, hsubs⟩ := of_foldlM_eq_some (R := fun s t => Settles groups root s.1 t.1)
      (fun _ => .refl _) .trans (fun sub hsub s t hst => (henter sub hsub s t hst).1) h
    refine ⟨hsettles, by simpa using hroot, fun sub hsub => ?_⟩
    obtain ⟨s, t, hst, hlast⟩ := hsubs sub hsub
    exact hlast.subset (henter sub hsub s t hst).2

end

theorem settles_of_search (hids : DistinctIds groups) (hd : current ∈ declared groups)
    {last : Visited (current.id :: visited)} (h : search groups root current visited = some last) :
    Settles groups root visited last.1 := by
  induction current, visited using search.induct groups with
  | case1 current visited ih =>
      have hfollow : ∀ key, ∀ s t : Visited (current.id :: visited),
          follow groups root s key = some t → Settles groups root s.1 t.1 ∧ key ≠ root ∧
            ∀ sub ∈ constructorsOf groups key, sub.id ∈ t.1 := by
        intro key s t
        refine settles_of_follow fun sub hsub s t => settles_of_enter fun hnew inner hinner => ?_
        rw [← List.contains_iff_mem] at hnew
        exact ih key s ⟨sub, hsub⟩ hnew (mem_declared_of_mem_constructorsOf hsub) hinner
      rw [search_eq] at h
      obtain ⟨hsettles, hkeys⟩ := of_foldlM_eq_some
        (R := fun s t => Settles groups root s.1 t.1) (fun _ => .refl _) .trans
        (fun key _ s t hst => (hfollow key s t hst).1) h
      have hexplored : Explored groups root last.1 current := by
        intro key hkey
        obtain ⟨s, t, hst, hlast⟩ := hkeys key hkey
        obtain ⟨-, hroot, hsubs⟩ := hfollow key s t hst
        exact ⟨hroot, fun sub hsub => hlast.subset (hsubs sub hsub)⟩
      refine ⟨fun i hi => last.2 (List.mem_cons_of_mem _ hi), fun e he hi => ?_⟩
      rcases hsettles.explored e he hi with hentered | hdone
      · rcases List.mem_cons.mp hentered with hsame | hbefore
        · exact .inr (hids e he current hd hsame ▸ hexplored)
        · exact .inl hbefore
      · exact .inr hdone

theorem not_leadsBack_of_settles (hkeys : (groups.map (·.key)).Nodup)
    (h : Settles groups root [] after) (hd : d ∈ declared groups) (hi : d.id ∈ after) :
    ¬LeadsBack groups root d := by
  rintro ⟨named, hnamed, hchain⟩
  have hexplored : ∀ e ∈ declared groups, e.id ∈ after → Explored groups root after e :=
    fun e he hi => (h.explored e he hi).resolve_left List.not_mem_nil
  induction hchain using ReflTransGen.head_induction_on generalizing d with
  | refl => exact (hexplored d hd hi root hnamed).1 rfl
  | head hrefers _ ih =>
      obtain ⟨g, hg, rfl, e, he, hnext⟩ := hrefers
      have hsub : e ∈ constructorsOf groups g.key := by rwa [constructorsOf_key hkeys hg]
      rw [schemaPrefix_of_mem_references hnamed] at hnext
      exact ih (mem_declared hg he) ((hexplored d hd hi g.key hnamed).2 e hsub) hnext

/-! ## The marks -/

theorem search_eq_none_iff (hkeys : (groups.map (·.key)).Nodup) (hids : DistinctIds groups)
    (hd : d ∈ declared groups) : search groups root d [] = none ↔ LeadsBack groups root d := by
  refine ⟨leadsBack_of_search_eq_none, fun hback => ?_⟩
  cases hsearch : search groups root d [] with
  | none => rfl
  | some last =>
      have hsettles := settles_of_search hids hd hsearch
      exact absurd hback (not_leadsBack_of_settles hkeys hsettles hd (last.2 List.mem_cons_self))

theorem mem_ids {id : UInt32} : id ∈ ids groups ↔
    ∃ g ∈ groups, ∃ d ∈ g.constructors, d.id = id ∧ search groups g.key d [] = none := by
  simp only [ids, List.mem_flatMap, List.mem_map, List.mem_filter, Option.isNone_iff_eq_none]
  constructor
  · rintro ⟨g, hg, d, ⟨hd, hsearch⟩, hid⟩
    exact ⟨g, hg, d, hd, hid, hsearch⟩
  · rintro ⟨g, hg, d, hd, hid, hsearch⟩
    exact ⟨g, hg, d, ⟨hd, hsearch⟩, hid⟩

/-- The recursive identifiers are those of constructors that lead back to their own type. -/
theorem mem_ids_iff (hkeys : (groups.map (·.key)).Nodup) (hids : DistinctIds groups)
    {id : UInt32} : id ∈ ids groups ↔
      ∃ g ∈ groups, ∃ d ∈ g.constructors, d.id = id ∧ LeadsBack groups g.key d := by
  rw [mem_ids]
  constructor
  · rintro ⟨g, hg, d, hd, hid, hsearch⟩
    exact ⟨g, hg, d, hd, hid, leadsBack_of_search_eq_none hsearch⟩
  · rintro ⟨g, hg, d, hd, hid, hback⟩
    exact ⟨g, hg, d, hd, hid, (search_eq_none_iff hkeys hids (mem_declared hg hd)).mpr hback⟩

end Recursion

end TypeLang
