import Mathlib.Data.List.Nodup
import Mathlib.Tactic.Common

/-!
# Association lists

Presence tables and the fields of objects are lists of keys and values. These lemmas say what
`List.lookup` finds in such a list, also after its values have been changed at one key, and what
`List.find?` finds by a key that the members of a list carry themselves.
-/

namespace TypeLang.Association

variable {α β : Type} [BEq α] [LawfulBEq α] {pairs : List (α × β)} {key other : α} {value : β}

theorem lookup_cons_of_ne (h : other ≠ key) :
    ((key, value) :: pairs).lookup other = pairs.lookup other := by
  rw [List.lookup_cons, beq_false_of_ne h]

theorem mem_of_lookup (h : pairs.lookup key = some value) : (key, value) ∈ pairs := by
  obtain ⟨front, back, rfl, -⟩ := List.lookup_eq_some_iff.mp h
  exact List.mem_append_right _ List.mem_cons_self

theorem lookup_eq_none_iff_notMem : pairs.lookup key = none ↔ key ∉ pairs.map (·.1) := by
  simp only [List.lookup_eq_none_iff, List.mem_map, bne_iff_ne, ne_eq, not_exists, not_and]
  exact ⟨fun h p hp heq => h p hp heq.symm, fun h p hp heq => h p hp heq.symm⟩

theorem isSome_lookup_iff_mem : (pairs.lookup key).isSome ↔ key ∈ pairs.map (·.1) := by
  rw [← not_iff_not, ← lookup_eq_none_iff_notMem, Option.not_isSome_iff_eq_none]

theorem lookup_eq_some_iff_mem (h : (pairs.map (·.1)).Nodup) :
    pairs.lookup key = some value ↔ (key, value) ∈ pairs := by
  refine ⟨mem_of_lookup, fun hmem => ?_⟩
  obtain ⟨found, hfound⟩ := Option.isSome_iff_exists.mp
    (isSome_lookup_iff_mem.mpr (List.mem_map.mpr ⟨_, hmem, rfl⟩))
  have hpair : (key, value) = (key, found) :=
    List.inj_on_of_nodup_map h hmem (mem_of_lookup hfound) rfl
  rw [hfound, (Prod.mk.inj hpair).2]

theorem lookup_map_at (change : β → β) (pairs : List (α × β)) (key other : α) :
    (pairs.map fun (k, v) => if k == key then (k, change v) else (k, v)).lookup other =
      if other == key then (pairs.lookup other).map change else pairs.lookup other := by
  induction pairs with
  | nil => simp
  | cons pair pairs ih =>
      obtain ⟨first, found⟩ := pair
      simp only [List.map_cons]
      by_cases hother : other = first
      · subst hother
        by_cases hkey : other = key
        · simp only [hkey, BEq.rfl, if_true, List.lookup_cons_self, Option.map_some]
        · simp only [beq_false_of_ne hkey, Bool.false_eq_true, if_false, List.lookup_cons_self]
      · by_cases hfirst : first = key
        · simp only [hfirst, BEq.rfl, if_true]
          rw [lookup_cons_of_ne (hfirst ▸ hother), lookup_cons_of_ne (hfirst ▸ hother), ih]
        · simp only [beq_false_of_ne hfirst, Bool.false_eq_true, if_false]
          rw [lookup_cons_of_ne hother, lookup_cons_of_ne hother, ih]

theorem find?_eq_some_of_mem {xs : List β} {keyOf : β → α} (h : (xs.map keyOf).Nodup) {x : β}
    (hx : x ∈ xs) : xs.find? (keyOf · == keyOf x) = some x := by
  have hfound : (xs.find? (keyOf · == keyOf x)).isSome := List.find?_isSome.mpr ⟨x, hx, BEq.rfl⟩
  obtain ⟨y, hy⟩ := Option.isSome_iff_exists.mp hfound
  have hkey : keyOf y = keyOf x := by simpa using List.find?_some hy
  rw [hy, List.inj_on_of_nodup_map h (List.mem_of_find?_eq_some hy) hx hkey]

theorem any_key_eq_isSome (pairs : List (α × β)) (key : α) :
    pairs.any (·.1 == key) = (pairs.lookup key).isSome := by
  rw [Bool.eq_iff_iff, List.lookup_isSome_iff, List.any_eq_true]
  constructor <;> rintro ⟨pair, hpair, hkey⟩ <;> exact ⟨pair, hpair, BEq.symm hkey⟩

/-- Two lists of pairs with the same keys in the same order are equal if they agree at each key. -/
theorem eq_of_keys_eq {others : List (α × β)} (hdistinct : (pairs.map (·.1)).Nodup)
    (hkeys : pairs.map (·.1) = others.map (·.1))
    (hvalues : ∀ key v w, pairs.lookup key = some v → others.lookup key = some w → v = w) :
    pairs = others := by
  induction pairs generalizing others with
  | nil => simpa using hkeys
  | cons pair pairs ih =>
      obtain ⟨key, v⟩ := pair
      cases others with
      | nil => cases hkeys
      | cons other others =>
          obtain ⟨key', w⟩ := other
          obtain ⟨rfl, hrest⟩ := List.cons.inj hkeys
          obtain ⟨hnew, hdistinct⟩ := List.nodup_cons.mp hdistinct
          have hhead : v = w :=
            hvalues key v w List.lookup_cons_self List.lookup_cons_self
          have htail : pairs = others := by
            refine ih hdistinct hrest fun name a b ha hb => hvalues name a b ?_ ?_
            all_goals
              have hne : name ≠ key := by
                intro hname
                rw [hname] at ha
                exact hnew (List.mem_map.mpr ⟨_, mem_of_lookup ha, rfl⟩)
              rw [lookup_cons_of_ne hne]
              assumption
          rw [hhead, htail]

theorem eq_filter_of_sublist [DecidableEq α] {part whole : List α} (hwhole : whole.Nodup)
    (h : part.Sublist whole) : part = whole.filter (· ∈ part) := by
  induction h with
  | slnil => rfl
  | @cons part whole a h ih =>
      obtain ⟨hnew, hwhole⟩ := List.nodup_cons.mp hwhole
      have hnot : a ∉ part := fun hmem => hnew (h.subset hmem)
      rw [List.filter_cons_of_neg (by simpa using hnot)]
      exact ih hwhole
  | @cons_cons part whole a h ih =>
      obtain ⟨hnew, hwhole⟩ := List.nodup_cons.mp hwhole
      have hsame : whole.filter (· ∈ a :: part) = whole.filter (· ∈ part) := by
        refine List.filter_congr fun b hb => ?_
        have hne : b ≠ a := fun heq => hnew (heq ▸ hb)
        simp [hne]
      rw [List.filter_cons_of_pos (by simp), hsame, ← ih hwhole]

theorem eq_of_sublist_of_perm [DecidableEq α] {part other whole : List α} (hwhole : whole.Nodup)
    (h : part.Sublist whole) (h' : other.Sublist whole) (hperm : part.Perm other) :
    part = other := by
  rw [eq_filter_of_sublist hwhole h, eq_filter_of_sublist hwhole h']
  exact List.filter_congr fun a _ => by simp only [hperm.mem_iff]

end TypeLang.Association
