import Mathlib
import TypeLang.Name.Casing

/-!
# Common beginnings

What names begin with in common is found by bytes: from each name only the byte is kept at which it
parts from the first name, and the least of these bytes is where the first name is cut. Here the
bytes are turned into characters. A byte that is kept is always the end of a beginning of the first
name (`sharedEnd_eq`), the least of them is the end of what they all have in common
(`foldl_min_sharedEnd`), and so the cut never goes through a character (`commonPrefix_cons`).
-/

namespace TypeLang

theorem utf8ByteSize_eq_utf8Len (s : String) : s.utf8ByteSize = String.utf8Len s.toList := by
  rw [← String.utf8ByteSize_ofList, String.ofList_toList]

theorem Text.splitAtByte?_append (a b : List Char) :
    splitAtByte? (String.utf8Len a) (a ++ b) = some (a, b) := by
  induction a with
  | nil => rw [String.utf8Len_nil, List.nil_append, splitAtByte?]
  | cons c a ih =>
      obtain ⟨n, hn⟩ : ∃ n, String.utf8Len a + c.utf8Size = n + 1 :=
        Nat.exists_eq_succ_of_ne_zero (by have := c.utf8Size_pos; omega)
      rw [String.utf8Len_cons, hn, List.cons_append, splitAtByte?, if_pos (by omega), ← hn,
        Nat.add_sub_cancel, ih, Option.map_some]

namespace Casing

/-! ## Two names -/

def commonStart : List Char → List Char → List Char
  | a :: as, b :: bs => if a = b then a :: commonStart as bs else []
  | _, _ => []

theorem isPrefix_commonStart_iff {start first second : List Char} :
    start <+: commonStart first second ↔ start <+: first ∧ start <+: second := by
  induction first generalizing start second with
  | nil => simp +contextual [commonStart]
  | cons a first ih =>
      cases second with
      | nil => simp +contextual [commonStart]
      | cons b second =>
          cases start with
          | nil => simp
          | cons c start =>
              rw [commonStart, List.cons_prefix_cons, List.cons_prefix_cons]
              split
              · rename_i hab
                rw [List.cons_prefix_cons, ih, ← hab]
                tauto
              · rename_i hab
                simp only [List.prefix_nil, reduceCtorEq, false_iff]
                rintro ⟨⟨rfl, -⟩, rfl, -⟩
                exact hab rfl

theorem commonStart_isPrefix (first second : List Char) : commonStart first second <+: first :=
  (isPrefix_commonStart_iff.mp List.prefix_rfl).1

/-- Behind the last pair of like characters is the end of what is common. -/
theorem sharedEnd_eq (first name : List Char) :
    sharedEnd first name = String.utf8Len (commonStart first name) := by
  have hfrom (start : Nat) : (((charIndices start first).zip name).takeWhile
      fun q => q.1.2 == q.2).getLast?.elim start (fun q => q.1.1 + q.1.2.utf8Size) =
        start + String.utf8Len (commonStart first name) := by
    induction first generalizing start name with
    | nil => rfl
    | cons a first ih =>
        cases name with
        | nil => rfl
        | cons b name =>
            rw [charIndices, List.zip_cons_cons, List.takeWhile_cons, commonStart]
            by_cases hab : a = b
            · have hrest := ih name (start + a.utf8Size)
              rw [if_pos (beq_iff_eq.mpr hab), if_pos hab, List.getLast?_cons, Option.elim_some,
                String.utf8Len_cons]
              cases hlast : (((charIndices (start + a.utf8Size) first).zip name).takeWhile
                  fun q => q.1.2 == q.2).getLast? with
              | none =>
                  rw [hlast, Option.elim_none] at hrest
                  rw [Option.getD_none]
                  change start + a.utf8Size = _
                  omega
              | some last =>
                  rw [hlast, Option.elim_some] at hrest
                  rw [Option.getD_some, hrest]
                  omega
            · rw [if_neg (by simpa using hab), if_neg hab]
              rfl
  rw [← Nat.zero_add (String.utf8Len _)]
  exact hfrom 0

/-! ## The least byte -/

theorem utf8Len_commonStart {start first name : List Char} (h : start <+: first) :
    String.utf8Len (commonStart start name) =
      min (sharedEnd first name) (String.utf8Len start) := by
  have hshared := commonStart_isPrefix first name
  have hsame : ∀ other, other <+: commonStart start name ↔
      other <+: start ∧ other <+: commonStart first name := by
    intro other
    rw [isPrefix_commonStart_iff, isPrefix_commonStart_iff]
    exact ⟨fun ⟨hstart, hname⟩ => ⟨hstart, hstart.trans h, hname⟩,
      fun ⟨hstart, _, hname⟩ => ⟨hstart, hname⟩⟩
  rw [sharedEnd_eq]
  rcases List.prefix_or_prefix_of_prefix h hshared with hshorter | hshorter
  · have hstart : commonStart start name = start :=
      (commonStart_isPrefix start name).eq_of_length_le
        ((hsame start).mpr ⟨List.prefix_rfl, hshorter⟩).length_le
    rw [hstart, min_eq_right (String.utf8Len_le_of_prefix hshorter)]
  · have hcommon : commonStart start name = commonStart first name :=
      ((hsame _).mp List.prefix_rfl).2.eq_of_length_le
        ((hsame _).mpr ⟨hshorter, List.prefix_rfl⟩).length_le
    rw [hcommon, min_eq_left (String.utf8Len_le_of_prefix hshorter)]

def commonStartOfAll (start : List Char) (names : List String) : List Char :=
  names.foldl (fun start name => commonStart start name.toList) start

theorem isPrefix_commonStartOfAll_iff {start first : List Char} {names : List String} :
    start <+: commonStartOfAll first names ↔
      start <+: first ∧ ∀ name ∈ names, start <+: name.toList := by
  induction names generalizing first with
  | nil => simp [commonStartOfAll]
  | cons name names ih =>
      change start <+: commonStartOfAll (commonStart first name.toList) names ↔ _
      rw [ih, isPrefix_commonStart_iff, List.forall_mem_cons, and_assoc]

/-- The least byte is the end of what all names begin with. The first name is compared with each
of the others anew, so that what is kept must be a beginning of it. -/
theorem foldl_min_sharedEnd {start first : List Char} (h : start <+: first)
    (names : List String) :
    names.foldl (fun stop name => min (sharedEnd first name.toList) stop) (String.utf8Len start) =
      String.utf8Len (commonStartOfAll start names) := by
  induction names generalizing start with
  | nil => rfl
  | cons name names ih =>
      rw [List.foldl_cons, ← utf8Len_commonStart h]
      exact ih ((commonStart_isPrefix start name.toList).trans h)

/-! ## All names -/

theorem commonPrefix_cons (first : String) (rest : List String) :
    commonPrefix (first :: rest) = String.ofList (commonStartOfAll first.toList rest) := by
  have hstop : rest.foldl (fun stop name => min (sharedEnd first.toList name.toList) stop)
      first.utf8ByteSize = String.utf8Len (commonStartOfAll first.toList rest) := by
    rw [utf8ByteSize_eq_utf8Len]
    exact foldl_min_sharedEnd List.prefix_rfl rest
  obtain ⟨back, hback⟩ : commonStartOfAll first.toList rest <+: first.toList :=
    (isPrefix_commonStartOfAll_iff.mp List.prefix_rfl).1
  have hcut := Text.splitAtByte?_append (commonStartOfAll first.toList rest) back
  rw [hback] at hcut
  simp only [commonPrefix, hstop, hcut]

theorem isPrefix_commonPrefix_iff {start : List Char} {names : List String} (hnames : names ≠ []) :
    start <+: (commonPrefix names).toList ↔ ∀ name ∈ names, start <+: name.toList := by
  cases names with
  | nil => exact absurd rfl hnames
  | cons first rest =>
      rw [commonPrefix_cons, String.toList_ofList, isPrefix_commonStartOfAll_iff,
        List.forall_mem_cons]

/-- The common beginning is the longest text that all names begin with, in whatever order. -/
theorem commonPrefix_perm {names others : List String} (h : names.Perm others) :
    commonPrefix names = commonPrefix others := by
  by_cases hnames : names = []
  · subst hnames
    rw [h.nil_eq]
  · have hothers : others ≠ [] := fun heq => hnames (heq ▸ h).eq_nil
    have hsame (start : List Char) :
        start <+: (commonPrefix names).toList ↔ start <+: (commonPrefix others).toList := by
      rw [isPrefix_commonPrefix_iff hnames, isPrefix_commonPrefix_iff hothers]
      simp only [h.mem_iff]
    refine String.toList_inj.mp (List.IsPrefix.eq_of_length_le ?_ ?_)
    · exact (hsame _).mp List.prefix_rfl
    · exact ((hsame _).mpr List.prefix_rfl).length_le

theorem splitAtByte?_commonPrefix {names : List String} {name : String} (h : name ∈ names) :
    Text.splitAtByte? (commonPrefix names).utf8ByteSize name.toList =
      some ((commonPrefix names).toList,
        name.toList.drop (commonPrefix names).toList.length) := by
  have hbegins : (commonPrefix names).toList <+: name.toList :=
    (isPrefix_commonPrefix_iff (List.ne_nil_of_mem h)).mp List.prefix_rfl name h
  obtain ⟨back, hback⟩ := hbegins
  rw [utf8ByteSize_eq_utf8Len, ← hback, Text.splitAtByte?_append, List.drop_left]

end Casing

end TypeLang
