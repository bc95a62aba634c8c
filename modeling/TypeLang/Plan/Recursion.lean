import TypeLang.Plan.TypeGroup

/-!
# Recursive constructors

A constructor is recursive if its parameters lead back to its own type, directly or through other
types. A depth-first search from the constructor finds out: it enters the constructors of the types
that are named, none of them twice, and stops as soon as its own type is named.
-/

namespace TypeLang.Recursion

/-- The type of the constructor with the given full name. Of several the last counts. -/
def constructorType? (groups : List TypeGroup) (schemaPrefix fullName : String) : Option TypeKey :=
  (groups.reverse.find? fun g =>
    g.key.schemaPrefix == schemaPrefix && g.constructors.any (·.fullName == fullName)).map (·.key)

/-- The types that the parameters of a declaration name. A lowercase name is that of a
constructor. -/
def references (groups : List TypeGroup) (schemaPrefix : String) (d : Declaration) : List TypeKey :=
  (d.params.flatMap (·.type.names)).filterMap fun name =>
    if name.isLowercase then constructorType? groups schemaPrefix name.fullName
    else some (TypeKey.ofName schemaPrefix name)

def constructorsOf (groups : List TypeGroup) (key : TypeKey) : List Declaration :=
  ((TypeGroup.find? groups key).map (·.constructors)).getD []

def declared (groups : List TypeGroup) : List Declaration :=
  groups.flatMap (·.constructors)

def unvisited (groups : List TypeGroup) (visited : List UInt32) : List Declaration :=
  (declared groups).filter fun d => !visited.contains d.id

theorem mem_declared_of_mem_constructorsOf {groups : List TypeGroup} {key : TypeKey}
    {d : Declaration} (h : d ∈ constructorsOf groups key) : d ∈ declared groups := by
  rw [constructorsOf] at h
  cases hg : TypeGroup.find? groups key with
  | none => simp [hg] at h
  | some g =>
      rw [hg] at h
      exact List.mem_flatMap.mpr ⟨g, List.mem_of_find?_eq_some hg, h⟩

theorem length_unvisited_lt {groups : List TypeGroup} {before visited : List UInt32}
    {d : Declaration} (hsubset : before ⊆ visited) (hd : d ∈ declared groups)
    (hnew : ¬visited.contains d.id) :
    (unvisited groups (d.id :: visited)).length < (unvisited groups before).length := by
  have hfilter : unvisited groups (d.id :: visited) =
      (unvisited groups before).filter fun e => !(d.id :: visited).contains e.id := by
    rw [unvisited, unvisited, List.filter_filter]
    apply List.filter_congr
    intro e _
    simpa using fun _ hvisited hbefore => hvisited (hsubset hbefore)
  rw [hfilter, List.length_filter_lt_length_iff_exists]
  refine ⟨d, List.mem_filter.mpr ⟨hd, ?_⟩, by simp⟩
  simpa using fun hbefore => hnew (List.contains_iff_mem.mpr (hsubset hbefore))

/-- The identifiers visited at some point of a search, since those in `entered` were. -/
abbrev Visited (entered : List UInt32) :=
  { visited : List UInt32 // entered ⊆ visited }

/-- The search for the type `root` from a constructor, with the identifiers visited so far. It comes
to `none` when it meets `root`, and otherwise to the identifiers visited in the end. -/
def search (groups : List TypeGroup) (root : TypeKey) (current : Declaration)
    (visited : List UInt32) : Option (Visited (current.id :: visited)) :=
  (references groups root.schemaPrefix current).foldlM (fun before key =>
    if key == root then none
    else (constructorsOf groups key).attach.foldlM (fun before sub =>
      if _h : before.1.contains sub.1.id then some before
      else do
        let after ← search groups root sub.1 before.1
        return ⟨after.1, fun _ hi => after.2 (List.mem_cons_of_mem _ (before.2 hi))⟩) before)
    ⟨current.id :: visited, fun _ => id⟩
termination_by (unvisited groups (current.id :: visited)).length
decreasing_by exact length_unvisited_lt before.2 (mem_declared_of_mem_constructorsOf sub.2) _h

/-- The identifiers of the recursive constructors. Each constructor is searched from anew. -/
def ids (groups : List TypeGroup) : List UInt32 :=
  groups.flatMap fun g =>
    (g.constructors.filter fun d => (search groups g.key d []).isNone).map (·.id)

end TypeLang.Recursion
