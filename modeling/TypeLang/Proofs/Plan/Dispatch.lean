import Mathlib.Data.List.Induction
import TypeLang.Proofs.Plan.Compiled

/-!
# The dispatch table

Declarations are added to the table one by one. `Describes` says what the table of some declarations
is; adding one more keeps it, unless the identifier is taken, and then the error names who took it.
Going on, a list of declarations has a table exactly if it is `CollisionFree`, and otherwise the
first declaration that collides is reported. `dispatch_isExact` says what this means for looking up
identifiers and sizes in a compiled plan set.
-/

namespace TypeLang

namespace DispatchTable

variable {t : DispatchTable} {front back ds : List DeclarationPlan} {d : DeclarationPlan}
  {first : String}

/-! ## Collisions -/

def reservedNames : List (UInt32 × String) :=
  [(Wire.boolTrueId, "boolTrue"), (Wire.boolFalseId, "boolFalse"), (Wire.vectorId, "vector")]

/-- No two declarations share an identifier, and none but built-in ones have a reserved one. -/
structure CollisionFree (ds : List DeclarationPlan) : Prop where
  distinct : (ds.map (·.id)).Nodup
  notReserved : ∀ d ∈ ds, d.role ≠ .builtin → d.id ∉ reservedIds

/-- Behind the declarations `front`, the identifier of `d` is taken by the one, or under the
reserved name, that is called `first`. -/
inductive Claimed (front : List DeclarationPlan) (d : DeclarationPlan) : String → Prop
  | declaration {e : DeclarationPlan} (mem : e ∈ front) (id : e.id = d.id) : Claimed front d e.name
  | reserved {name : String} (fresh : ∀ e ∈ front, e.id ≠ d.id) (role : d.role ≠ .builtin)
      (mem : (d.id, name) ∈ reservedNames) : Claimed front d name

theorem mem_reservedIds_iff {id : UInt32} :
    id ∈ reservedIds ↔ ∃ name, (id, name) ∈ reservedNames := by
  simp only [reservedIds, reservedNames, List.mem_cons, List.not_mem_nil, or_false, Prod.mk.injEq]
  constructor
  · rintro (h | h | h)
    · exact ⟨_, .inl ⟨h, rfl⟩⟩
    · exact ⟨_, .inr (.inl ⟨h, rfl⟩)⟩
    · exact ⟨_, .inr (.inr ⟨h, rfl⟩)⟩
  · rintro ⟨name, ⟨h, -⟩ | ⟨h, -⟩ | ⟨h, -⟩⟩ <;> simp [h]

theorem exists_claimed_iff :
    (∃ first, Claimed front d first) ↔
      (∃ e ∈ front, e.id = d.id) ∨ d.role ≠ .builtin ∧ d.id ∈ reservedIds := by
  constructor
  · rintro ⟨first, ⟨mem, id⟩ | ⟨-, role, mem⟩⟩
    · exact .inl ⟨_, mem, id⟩
    · exact .inr ⟨role, mem_reservedIds_iff.mpr ⟨_, mem⟩⟩
  · intro h
    by_cases htaken : ∃ e ∈ front, e.id = d.id
    · obtain ⟨e, he, hid⟩ := htaken
      exact ⟨e.name, .declaration he hid⟩
    · obtain ⟨hrole, hreserved⟩ := h.resolve_left htaken
      obtain ⟨name, hname⟩ := mem_reservedIds_iff.mp hreserved
      exact ⟨name, .reserved (fun e he hid => htaken ⟨e, he, hid⟩) hrole hname⟩

theorem collisionFree_nil : CollisionFree [] :=
  ⟨List.nodup_nil, fun _ hd => nomatch hd⟩

theorem collisionFree_concat :
    CollisionFree (front ++ [d]) ↔ CollisionFree front ∧ ∀ first, ¬Claimed front d first := by
  rw [← not_exists, exists_claimed_iff]
  constructor
  · rintro ⟨hdistinct, hreserved⟩
    rw [List.map_append, List.nodup_append] at hdistinct
    refine ⟨⟨hdistinct.1, fun e he => hreserved e (List.mem_append_left _ he)⟩, ?_⟩
    rintro (⟨e, he, hid⟩ | ⟨hrole, hid⟩)
    · exact hdistinct.2.2 _ (List.mem_map_of_mem he) _ List.mem_cons_self hid
    · exact hreserved d (by simp) hrole hid
  · rintro ⟨⟨hdistinct, hreserved⟩, hfree⟩
    rw [not_or, not_and] at hfree
    refine ⟨?_, fun e he hrole => ?_⟩
    · rw [List.map_append, List.nodup_append]
      refine ⟨hdistinct, List.nodup_singleton _, ?_⟩
      intro id hid other hother heq
      obtain ⟨e, he, rfl⟩ := List.mem_map.mp hid
      rw [List.map_singleton, List.mem_singleton] at hother
      exact hfree.1 ⟨e, he, heq.trans hother⟩
    · rcases List.mem_append.mp he with he | he
      · exact hreserved e he hrole
      · rw [List.mem_singleton.mp he] at hrole ⊢
        exact hfree.2 hrole

theorem CollisionFree.of_append (h : CollisionFree (front ++ back)) : CollisionFree front := by
  refine ⟨?_, fun d hd => h.notReserved d (List.mem_append_left _ hd)⟩
  have hdistinct := h.distinct
  rw [List.map_append] at hdistinct
  exact hdistinct.of_append_left

/-- A list that is not free of collisions has a first declaration that collides. -/
theorem exists_first_claimed (h : ¬CollisionFree ds) :
    ∃ front d back first,
      ds = front ++ d :: back ∧ CollisionFree front ∧ Claimed front d first := by
  -- On the last declaration, which is the first to collide unless there is one in front of it.
  induction ds using List.reverseRecOn with
  | nil => exact absurd collisionFree_nil h
  | append_singleton ds d ih =>
      by_cases hfree : CollisionFree ds
      · rw [collisionFree_concat, not_and, not_forall_not] at h
        obtain ⟨first, hfirst⟩ := h hfree
        exact ⟨ds, d, [], first, rfl, hfree, hfirst⟩
      · obtain ⟨front, e, back, first, rfl, hfront, hfirst⟩ := ih hfree
        exact ⟨front, e, back ++ [d], first, by simp, hfront, hfirst⟩

/-! ## Groups of one size -/

def idsOfSize (ds : List DeclarationPlan) (size : Nat) : List UInt32 :=
  (ds.filter fun d => d.role ≠ .builtin ∧ d.layout.size.constant? = some size).map (·.id)

theorem idsOfSize_concat_of_mem {size : Nat} (hrole : d.role ≠ .builtin)
    (hsize : d.layout.size.constant? = some size) :
    idsOfSize (front ++ [d]) size = idsOfSize front size ++ [d.id] := by
  unfold idsOfSize
  rw [List.filter_append, List.filter_cons_of_pos (by simp [hrole, hsize]), List.map_append]
  rfl

theorem idsOfSize_concat_of_notMem {size : Nat}
    (h : d.role = .builtin ∨ d.layout.size.constant? ≠ some size) :
    idsOfSize (front ++ [d]) size = idsOfSize front size := by
  unfold idsOfSize
  rw [List.filter_append, List.filter_cons_of_neg, List.filter_nil, List.append_nil]
  rcases h with h | h <;> simp [h]

theorem lookup_addToGroup (groups : List (Nat × List UInt32)) (size : Nat) (id : UInt32)
    (other : Nat) :
    (addToGroup groups size id).lookup other =
      if other == size then some ((groups.lookup other).getD [] ++ [id])
      else groups.lookup other := by
  unfold addToGroup
  rw [Association.any_key_eq_isSome]
  by_cases hgroup : (groups.lookup size).isSome
  · obtain ⟨ids, hids⟩ := Option.isSome_iff_exists.mp hgroup
    rw [if_pos hgroup, Association.lookup_map_at (· ++ [id] : List UInt32 → _)]
    by_cases hother : other = size
    · rw [hother, if_pos BEq.rfl, if_pos BEq.rfl, hids]
      rfl
    · simp [hother]
  · rw [if_neg hgroup, List.lookup_append]
    rw [Option.not_isSome_iff_eq_none] at hgroup
    by_cases hother : other = size
    · rw [hother, hgroup, if_pos BEq.rfl, Option.none_or, List.lookup_cons_self]
      rfl
    · rw [Association.lookup_cons_of_ne hother]
      simp [hother]

structure GroupsOf (groups : List (Nat × List UInt32)) (ds : List DeclarationPlan) : Prop where
  sizes : (groups.map (·.1)).Nodup
  inhabited : ∀ size, groups.lookup size ≠ some []
  ids : ∀ size, (groups.lookup size).getD [] = idsOfSize ds size

theorem GroupsOf.keep {groups : List (Nat × List UInt32)} (h : GroupsOf groups front)
    (hd : d.role = .builtin ∨ d.layout.size.constant? = none) :
    GroupsOf groups (front ++ [d]) := by
  refine ⟨h.sizes, h.inhabited, fun size => ?_⟩
  rw [idsOfSize_concat_of_notMem (hd.imp_right fun hnone => by simp [hnone])]
  exact h.ids size

theorem GroupsOf.add {groups : List (Nat × List UInt32)} (h : GroupsOf groups front) {size : Nat}
    (hrole : d.role ≠ .builtin) (hsize : d.layout.size.constant? = some size) :
    GroupsOf (addToGroup groups size d.id) (front ++ [d]) := by
  refine ⟨?_, fun other => ?_, fun other => ?_⟩
  · unfold addToGroup
    split
    · rw [List.map_map, List.map_congr_left fun group _ => ?_]
      · exact h.sizes
      · simp only [Function.comp_apply]
        split <;> rfl
    · rename_i hnew
      rw [Association.any_key_eq_isSome, Association.isSome_lookup_iff_mem] at hnew
      rw [List.map_append, List.nodup_append]
      refine ⟨h.sizes, List.nodup_singleton _, fun key hkey other hother heq => hnew ?_⟩
      obtain rfl := List.mem_singleton.mp hother
      exact heq ▸ hkey
  · rw [lookup_addToGroup]
    split
    · simp
    · exact h.inhabited other
  · rw [lookup_addToGroup]
    by_cases hother : other = size
    · rw [hother, if_pos BEq.rfl, Option.getD_some, h.ids, idsOfSize_concat_of_mem hrole hsize]
    · rw [if_neg (by simpa using hother), h.ids, idsOfSize_concat_of_notMem (.inr ?_)]
      rw [hsize]
      exact fun heq => hother (Option.some.inj heq).symm

/-! ## Adding declarations -/

structure Describes (t : DispatchTable) (ds : List DeclarationPlan) : Prop where
  entries : t.entries = reserved.entries ++ entriesFrom 0 ds
  groups : GroupsOf t.sizeGroups ds

theorem describes_reserved : reserved.Describes [] :=
  ⟨rfl, ⟨List.nodup_nil, fun _ => nofun, fun _ => rfl⟩⟩

theorem entriesFrom_concat (front : List DeclarationPlan) (d : DeclarationPlan) :
    entriesFrom 0 (front ++ [d]) = entriesFrom 0 front ++ (entryOf d front.length).toList := by
  unfold entriesFrom
  rw [List.zipIdx_append, List.filterMap_append, Nat.zero_add]
  rfl

theorem mem_entriesFrom_iff {id : UInt32} {entry : DispatchEntry} :
    (id, entry) ∈ entriesFrom 0 ds ↔ ∃ index d, ds[index]? = some d ∧ d.id = id ∧
      d.role ≠ .builtin ∧ entry = .declaration d.schema d.name index := by
  simp only [entriesFrom, List.mem_filterMap, Prod.exists, entryOf, List.mem_zipIdx_iff_getElem?]
  constructor
  · rintro ⟨d, index, hd, hentry⟩
    split at hentry
    · cases hentry
    · rename_i hrole
      cases hentry
      exact ⟨index, d, hd, rfl, hrole, rfl⟩
  · rintro ⟨index, d, hd, rfl, hrole, rfl⟩
    exact ⟨d, index, hd, if_neg hrole⟩

theorem Describes.reservedName?_eq (h : t.Describes front) (hfresh : ∀ e ∈ front, e.id ≠ d.id) :
    (t.get? d.id).bind (·.reservedName?) = reservedNames.lookup d.id := by
  have hnone : (entriesFrom 0 front).lookup d.id = none := by
    rw [Association.lookup_eq_none_iff_notMem]
    intro hmem
    obtain ⟨⟨id, entry⟩, hentry, hid⟩ := List.mem_map.mp hmem
    obtain ⟨index, e, he, rfl, -⟩ := mem_entriesFrom_iff.mp hentry
    exact hfresh e (List.mem_of_getElem? he) hid
  unfold get?
  rw [h.entries, List.lookup_append, hnone, Option.or_none]
  simp only [reserved, reservedNames, List.lookup_cons, List.lookup_nil]
  repeat' split
  all_goals rfl

theorem Describes.add_of_claimed (h : t.Describes front) (hfree : CollisionFree front)
    (hclaimed : Claimed front d first) :
    t.add front.reverse d front.length = .error (.duplicateId d.id first d.name) := by
  unfold add
  cases hclaimed with
  | @declaration e mem id =>
      have hdistinct : (front.reverse.map (·.id)).Nodup := by
        rw [List.map_reverse, List.nodup_reverse]
        exact hfree.distinct
      have hfind := Association.find?_eq_some_of_mem hdistinct (List.mem_reverse.mpr mem)
      rw [id] at hfind
      rw [hfind]
  | reserved fresh role mem =>
      have hfind : front.reverse.find? (·.id == d.id) = none :=
        List.find?_eq_none.mpr fun e he => by
          simpa using fresh e (List.mem_reverse.mp he)
      have hname : reservedNames.lookup d.id = some first :=
        (Association.lookup_eq_some_iff_mem (by decide)).mpr mem
      rw [hfind]
      simp only
      rw [if_neg role, h.reservedName?_eq fresh, hname]

theorem Describes.add_of_not_claimed (h : t.Describes front)
    (hclaimed : ∀ first, ¬Claimed front d first) :
    ∃ t', t.add front.reverse d front.length = .ok t' ∧ t'.Describes (front ++ [d]) := by
  rw [← not_exists, exists_claimed_iff, not_or, not_and] at hclaimed
  obtain ⟨htaken, hreserved⟩ := hclaimed
  have hfresh : ∀ e ∈ front, e.id ≠ d.id := fun e he hid => htaken ⟨e, he, hid⟩
  have hfind : front.reverse.find? (·.id == d.id) = none :=
    List.find?_eq_none.mpr fun e he => by
      simpa using hfresh e (List.mem_reverse.mp he)
  unfold add
  rw [hfind]
  simp only
  by_cases hrole : d.role = .builtin
  · rw [if_pos hrole]
    refine ⟨_, rfl, ?_, h.groups.keep (.inl hrole)⟩
    rw [entriesFrom_concat, entryOf, if_pos hrole, Option.toList_none, List.append_nil]
    exact h.entries
  · have hname : reservedNames.lookup d.id = none := by
      rw [Association.lookup_eq_none_iff_notMem]
      intro hmem
      obtain ⟨⟨id, name⟩, hpair, rfl⟩ := List.mem_map.mp hmem
      exact hreserved hrole (mem_reservedIds_iff.mpr ⟨name, hpair⟩)
    rw [if_neg hrole, h.reservedName?_eq hfresh, hname]
    refine ⟨_, rfl, ?_, ?_⟩
    · rw [entriesFrom_concat, entryOf, if_neg hrole, h.entries, List.append_assoc]
      rfl
    · cases hsize : d.layout.size.constant? with
      | none => exact h.groups.keep (.inr hsize)
      | some size => exact h.groups.add hrole hsize

theorem Describes.addAll_of_collisionFree (h : t.Describes front)
    (hfree : CollisionFree (front ++ back)) :
    ∃ t', t.addAll front.reverse back = .ok t' ∧ t'.Describes (front ++ back) := by
  -- On what is left to add. Each declaration moves from `back` to `front`, whose table is known.
  induction back generalizing t front with
  | nil =>
      rw [List.append_nil]
      exact ⟨t, rfl, h⟩
  | cons d back ih =>
      rw [List.append_cons] at hfree
      have hd := (collisionFree_concat.mp hfree.of_append).2
      obtain ⟨next, hadd, hnext⟩ := h.add_of_not_claimed hd
      obtain ⟨t', hall, ht'⟩ := ih hnext hfree
      rw [List.append_cons]
      refine ⟨t', ?_, ht'⟩
      rw [List.reverse_concat] at hall
      rw [addAll, List.length_reverse, hadd]
      exact hall

theorem Describes.addAll_of_claimed {rest : List DeclarationPlan} (h : t.Describes front)
    (hfree : CollisionFree (front ++ back)) (hclaimed : Claimed (front ++ back) d first) :
    t.addAll front.reverse (back ++ d :: rest) = .error (.duplicateId d.id first d.name) := by
  induction back generalizing t front with
  | nil =>
      rw [List.append_nil] at hfree hclaimed
      rw [List.nil_append, addAll, List.length_reverse, h.add_of_claimed hfree hclaimed]
      rfl
  | cons e back ih =>
      rw [List.append_cons] at hfree hclaimed
      have he := (collisionFree_concat.mp hfree.of_append).2
      obtain ⟨next, hadd, hnext⟩ := h.add_of_not_claimed he
      have hrest := ih hnext hfree hclaimed
      rw [List.reverse_concat] at hrest
      rw [List.cons_append, addAll, List.length_reverse, hadd]
      exact hrest

theorem ofDeclarations_of_collisionFree (h : CollisionFree ds) :
    ∃ t, ofDeclarations ds = .ok t ∧ t.Describes ds := by
  rw [← List.nil_append ds] at h
  exact describes_reserved.addAll_of_collisionFree h

theorem ofDeclarations_of_claimed (hfree : CollisionFree front) (hclaimed : Claimed front d first) :
    ofDeclarations (front ++ d :: back) = .error (.duplicateId d.id first d.name) := by
  rw [← List.nil_append front] at hfree hclaimed
  exact describes_reserved.addAll_of_claimed hfree hclaimed

/-- There is no table exactly if two declarations share an identifier or one has a reserved
identifier that is not built in. -/
theorem exists_ofDeclarations_eq_error_iff :
    (∃ e, ofDeclarations ds = .error e) ↔ ¬CollisionFree ds := by
  constructor
  · rintro ⟨e, he⟩ hfree
    obtain ⟨t, ht, -⟩ := ofDeclarations_of_collisionFree hfree
    rw [ht] at he
    cases he
  · intro h
    obtain ⟨front, d, back, first, rfl, hfree, hclaimed⟩ := exists_first_claimed h
    exact ⟨_, ofDeclarations_of_claimed hfree hclaimed⟩

theorem ofDeclarations_eq_error_iff {e : PlanError} :
    ofDeclarations ds = .error e ↔
      ∃ front d back first, ds = front ++ d :: back ∧ CollisionFree front ∧
        Claimed front d first ∧ e = .duplicateId d.id first d.name := by
  constructor
  · intro h
    obtain ⟨front, d, back, first, rfl, hfree, hclaimed⟩ :=
      exists_first_claimed (exists_ofDeclarations_eq_error_iff.mp ⟨e, h⟩)
    rw [ofDeclarations_of_claimed hfree hclaimed] at h
    exact ⟨front, d, back, first, rfl, hfree, hclaimed, (Except.error.inj h).symm⟩
  · rintro ⟨front, d, back, first, rfl, hfree, hclaimed, rfl⟩
    exact ofDeclarations_of_claimed hfree hclaimed

/-! ## Looking up -/

theorem mem_entriesFrom_map_fst {id : UInt32} (h : id ∈ (entriesFrom 0 ds).map (·.1)) :
    ∃ d ∈ ds, d.id = id ∧ d.role ≠ .builtin := by
  obtain ⟨⟨id, entry⟩, hentry, rfl⟩ := List.mem_map.mp h
  obtain ⟨index, d, hd, hid, hrole, -⟩ := mem_entriesFrom_iff.mp hentry
  exact ⟨d, List.mem_of_getElem? hd, hid, hrole⟩

theorem map_fst_entriesFrom (ds : List DeclarationPlan) :
    (entriesFrom 0 ds).map (·.1) = (ds.filter (·.role ≠ .builtin)).map (·.id) := by
  induction ds using List.reverseRecOn with
  | nil => rfl
  | append_singleton ds d ih =>
      rw [entriesFrom_concat, List.map_append, ih, List.filter_append, List.map_append, entryOf]
      congr 1
      by_cases hrole : d.role = .builtin
      · rw [if_pos hrole, List.filter_cons_of_neg (by simpa using hrole)]
        rfl
      · rw [if_neg hrole, List.filter_cons_of_pos (by simpa using hrole)]
        rfl

theorem Describes.nodup (h : t.Describes ds) (hfree : CollisionFree ds) :
    (t.entries.map (·.1)).Nodup := by
  rw [h.entries, List.map_append, List.nodup_append]
  refine ⟨by decide, ?_, fun id hid other hother heq => ?_⟩
  · rw [map_fst_entriesFrom]
    exact hfree.distinct.sublist (List.filter_sublist.map _)
  · obtain ⟨d, hd, rfl, hrole⟩ := mem_entriesFrom_map_fst hother
    exact hfree.notReserved d hd hrole (heq ▸ hid)

/-- An identifier is dispatched to the declaration that has it, unless that is built in. -/
theorem Describes.get?_eq_declaration_iff (h : t.Describes ds) (hfree : CollisionFree ds)
    {id : UInt32} {schema name : String} {index : Nat} :
    t.get? id = some (.declaration schema name index) ↔
      ∃ d, ds[index]? = some d ∧ d.id = id ∧ d.role ≠ .builtin ∧ d.schema = schema ∧
        d.name = name := by
  unfold get?
  rw [Association.lookup_eq_some_iff_mem (h.nodup hfree), h.entries, List.mem_append,
    mem_entriesFrom_iff]
  constructor
  · rintro (hreserved | ⟨i, d, hd, hid, hrole, hentry⟩)
    · simp [reserved] at hreserved
    · cases hentry
      exact ⟨d, hd, hid, hrole, rfl, rfl⟩
  · rintro ⟨d, hd, hid, hrole, rfl, rfl⟩
    exact .inr ⟨index, d, hd, hid, hrole, rfl⟩

theorem Describes.get?_reserved (h : t.Describes ds) {id : UInt32} {entry : DispatchEntry}
    (hentry : reserved.get? id = some entry) : t.get? id = some entry := by
  unfold get? at hentry ⊢
  rw [h.entries, List.lookup_append, hentry, Option.some_or]

/-! ## Sizes -/

section

variable {groups : List (Nat × List UInt32)} {size : Nat} {ids : List UInt32}

theorem GroupsOf.mem_iff (h : GroupsOf groups ds) :
    (size, ids) ∈ groups ↔ ids = idsOfSize ds size ∧ ids ≠ [] := by
  rw [← Association.lookup_eq_some_iff_mem h.sizes]
  have hids := h.ids size
  constructor
  · intro hlookup
    rw [hlookup, Option.getD_some] at hids
    exact ⟨hids, fun hnil => h.inhabited size (hnil ▸ hlookup)⟩
  · rintro ⟨rfl, hne⟩
    cases hlookup : groups.lookup size with
    | none =>
        rw [hlookup] at hids
        exact absurd hids.symm hne
    | some found =>
        rw [hlookup] at hids
        rw [← hids]
        rfl

theorem mem_idsOfSize {id : UInt32} : id ∈ idsOfSize ds size ↔
    ∃ d ∈ ds, d.id = id ∧ d.role ≠ .builtin ∧ d.layout.size.constant? = some size := by
  simp only [idsOfSize, List.mem_map, List.mem_filter, decide_eq_true_eq]
  constructor
  · rintro ⟨d, ⟨hd, hrole, hsize⟩, hid⟩
    exact ⟨d, hd, hid, hrole, hsize⟩
  · rintro ⟨d, hd, hid, hrole, hsize⟩
    exact ⟨d, ⟨hd, hrole, hsize⟩, hid⟩

theorem GroupsOf.nodup (h : GroupsOf groups ds) (hfree : CollisionFree ds) :
    (groups.flatMap (·.2)).Nodup := by
  rw [List.nodup_flatMap]
  constructor
  · rintro ⟨size, ids⟩ hgroup
    obtain ⟨rfl, -⟩ := h.mem_iff.mp hgroup
    exact hfree.distinct.sublist (List.filter_sublist.map _)
  · have hsizes := List.pairwise_map.mp h.sizes
    refine hsizes.imp_of_mem ?_
    rintro ⟨m, ids⟩ ⟨n, others⟩ hids hothers hne
    obtain ⟨rfl, -⟩ := h.mem_iff.mp hids
    obtain ⟨rfl, -⟩ := h.mem_iff.mp hothers
    intro id hm hn
    obtain ⟨d, hd, rfl, -, hsize⟩ := mem_idsOfSize.mp hm
    obtain ⟨e, he, hid, -, hsize'⟩ := mem_idsOfSize.mp hn
    obtain rfl := List.inj_on_of_nodup_map hfree.distinct he hd hid
    rw [hsize] at hsize'
    exact hne (Option.some.inj hsize')

end

/-! ## Compiled plan sets -/

structure IsExact (t : DispatchTable) (ds : List DeclarationPlan) : Prop where
  /-- Built-in declarations are no exception. -/
  distinct : (ds.map (·.id)).Nodup
  declaration : ∀ id schema name index, t.get? id = some (.declaration schema name index) ↔
    ∃ d, ds[index]? = some d ∧ d.id = id ∧ d.role ≠ .builtin ∧ d.schema = schema ∧ d.name = name
  reserved : t.get? Wire.boolTrueId = some .boolTrue ∧
    t.get? Wire.boolFalseId = some .boolFalse ∧ t.get? Wire.vectorId = some .unknownVector
  size : t.size = 3 + (ds.filter (·.role ≠ .builtin)).length
  sizes : (t.sizeGroups.map (·.1)).Nodup
  /-- The identifiers of a group stand in the order of the declarations. -/
  group : ∀ size ids, (size, ids) ∈ t.sizeGroups → ids = idsOfSize ds size
  once : ∀ d ∈ ds, d.role ≠ .builtin → ∀ size, d.layout.size = .constant size →
    (t.sizeGroups.flatMap (·.2)).count d.id = 1 ∧ ∃ ids, (size, ids) ∈ t.sizeGroups ∧ d.id ∈ ids

theorem Describes.isExact (h : t.Describes ds) (hfree : CollisionFree ds) : t.IsExact ds where
  distinct := hfree.distinct
  declaration _ _ _ _ := h.get?_eq_declaration_iff hfree
  reserved := ⟨h.get?_reserved rfl, h.get?_reserved rfl, h.get?_reserved rfl⟩
  size := by
    have hlength := congrArg List.length (map_fst_entriesFrom ds)
    rw [List.length_map, List.length_map] at hlength
    rw [DispatchTable.size, h.entries, List.length_append, hlength]
    rfl
  sizes := h.groups.sizes
  group _ _ hgroup := (h.groups.mem_iff.mp hgroup).1
  once := by
    intro d hd hrole size hsize
    have hmem : d.id ∈ idsOfSize ds size :=
      mem_idsOfSize.mpr ⟨d, hd, rfl, hrole, by rw [hsize]; rfl⟩
    have hgroup : (size, idsOfSize ds size) ∈ t.sizeGroups :=
      h.groups.mem_iff.mpr ⟨rfl, List.ne_nil_of_mem hmem⟩
    refine ⟨?_, _, hgroup, hmem⟩
    exact List.count_eq_one_of_mem (h.groups.nodup hfree)
      (List.mem_flatMap.mpr ⟨_, hgroup, hmem⟩)

end DispatchTable

namespace PlanSet

open DispatchTable

variable {schemas : List Schema} {capabilities : Capabilities} {p : PlanSet}

theorem collisionFree (hp : compile schemas capabilities = .ok p) :
    CollisionFree p.declarations := by
  obtain ⟨-, -, -, -, -, hdispatch, -⟩ := compile_eq_ok hp
  by_contra h
  obtain ⟨e, he⟩ := exists_ofDeclarations_eq_error_iff.mpr h
  rw [hdispatch] at he
  cases he

theorem dispatch_describes (hp : compile schemas capabilities = .ok p) :
    p.dispatch.Describes p.declarations := by
  obtain ⟨t, ht, hdescribes⟩ := ofDeclarations_of_collisionFree (collisionFree hp)
  obtain ⟨-, -, -, -, -, hdispatch, -⟩ := compile_eq_ok hp
  rw [hdispatch] at ht
  cases ht
  exact hdescribes

theorem declaration?_eq (hp : compile schemas capabilities = .ok p) {d : DeclarationPlan}
    (hd : d ∈ p.declarations) : p.declaration? d.id = some d :=
  Association.find?_eq_some_of_mem (collisionFree hp).distinct hd

/-- The dispatch table of a compiled plan set is exact. Any list of declarations has a table unless
there is a collision, and then the first one in order is reported with who has the identifier. -/
theorem dispatch_isExact (hp : compile schemas capabilities = .ok p) :
    p.dispatch.IsExact p.declarations ∧
      (∀ (index : Nat) d, p.declarations[index]? = some d → p.declaration? d.id = some d) ∧
      ∀ ds, ((∃ e, ofDeclarations ds = .error e) ↔ ¬CollisionFree ds) ∧
        ∀ e, ofDeclarations ds = .error e ↔
          ∃ front d back first, ds = front ++ d :: back ∧ CollisionFree front ∧
            Claimed front d first ∧ e = .duplicateId d.id first d.name := by
  refine ⟨(dispatch_describes hp).isExact (collisionFree hp), fun index d hd => ?_, fun ds => ?_⟩
  · exact declaration?_eq hp (List.mem_of_getElem? hd)
  · exact ⟨exists_ofDeclarations_eq_error_iff, fun e => ofDeclarations_eq_error_iff⟩

/-- A person is dispatched to, and cannot be declared a second time. -/
theorem dispatch_isExact_people :
    people.dispatch.get? 2 = some (.declaration "api" "person" 1) ∧
      people.declaration? 2 = some person ∧
      ofDeclarations (people.declarations ++ [person]) =
        .error (.duplicateId 2 "person" "person") := by
  obtain ⟨hexact, hfound, herror⟩ := dispatch_isExact compile_people
  refine ⟨?_, hfound 1 person rfl, ?_⟩
  · exact (hexact.declaration 2 "api" "person" 1).mpr ⟨person, rfl, rfl, by decide, rfl, rfl⟩
  · refine ((herror _).2 _).mpr ⟨people.declarations, person, [], "person", rfl, ?_, ?_, rfl⟩
    · exact collisionFree compile_people
    · exact .declaration (e := person) person_mem rfl

end PlanSet

end TypeLang
