import Mathlib.Data.List.Basic
import TypeLang.Name.Casing
import TypeLang.Proofs.Text.Cut

/-!
# Words of a label

A label falls into words: dots and underscores separate them, and an uppercase letter behind a
lowercase letter or a digit starts a new one. In capitals and with underscores in between, these
words are the label in `UPPER_SNAKE_CASE`; a separator at the end leaves an underscore there
(`screamFrom_eq`). Cut at its underscores, what was written gives the words in capitals back, so
that two labels are written alike exactly if they are spelled alike (`screaming_inj`). The writing
forgets the case of letters, which separators there were, and whether a word was started by a
separator or by its first letter.
-/

namespace TypeLang.Casing

def isSeparator (c : Char) : Bool :=
  c == '.' || c == '_'

def isSmall (c : Char) : Bool :=
  c.isLower || c.isDigit

def endsBefore (afterSmall : Bool) : List Char → Bool
  | [] => false
  | next :: _ => isSeparator next || (afterSmall && next.isUpper)

def words : List Char → List (List Char)
  | [] => []
  | c :: cs =>
    if isSeparator c then words cs
    else if cs = [] ∨ endsBefore (isSmall c) cs then [c] :: words cs
    else (words cs).modifyHead (c :: ·)

def spelling (label : List Char) : List (List Char) :=
  (words label).map (·.map Char.toUpper) ++
    if label.getLast?.any isSeparator then [[]] else []

variable {c : Char} {cs label : List Char}

theorem isSeparator_iff : isSeparator c = true ↔ c = '.' ∨ c = '_' := by
  simp [isSeparator]

theorem ne_of_not_isSeparator (h : ¬isSeparator c = true) : c ≠ '_' := by
  rw [isSeparator_iff] at h
  exact fun hc => h (.inr hc)

theorem eq_of_toUpper_eq_underscore (h : c.toUpper = '_') : c = '_' := by
  unfold Char.toUpper at h
  split at h
  · rename_i hlower
    have hval := congrArg Char.val h
    simp only at hval
    grind
  · exact h

/-! ## Writing -/

/-- What has been written so far stays in front. The rest does not depend on it if no word is open;
if one is, the rest may have to begin with an underscore. -/
theorem screamFrom_append (cs : List Char) :
    (∀ done, done = [] ∨ done.head? = some '_' →
      screamFrom false done cs = done.reverse ++ screamFrom false [] cs) ∧
    ∀ afterSmall d done, d ≠ '_' → screamFrom afterSmall (d :: done) cs = (d :: done).reverse ++
      if endsBefore afterSmall cs then '_' :: screamFrom false [] cs
      else screamFrom false [] cs := by
  induction cs with
  | nil =>
      constructor
      · intro done hdone
        simp [screamFrom]
      · intro afterSmall d done hd
        simp [screamFrom, endsBefore]
  | cons c cs ih =>
      obtain ⟨hclosed, hopen⟩ := ih
      by_cases hc : c = '.' ∨ c = '_'
      · have hnil : screamFrom false [] (c :: cs) = screamFrom false [] cs := by
          rw [screamFrom_of_separator hc, if_pos (.inl rfl)]
        constructor
        · intro done hdone
          rw [screamFrom_of_separator hc, if_pos hdone, hclosed done hdone, hnil]
        · intro afterSmall d done hd
          have hends : endsBefore afterSmall (c :: cs) = true := by
            simp [endsBefore, isSeparator_iff.mpr hc]
          rw [screamFrom_of_separator hc, if_neg (by simpa using hd), hclosed _ (.inr rfl), hends,
            if_pos rfl, hnil]
          simp
      · have hupper : c.toUpper ≠ '_' := fun h => hc (.inr (eq_of_toUpper_eq_underscore h))
        have hnil : screamFrom false [] (c :: cs) = c.toUpper ::
            if endsBefore (isSmall c) cs then '_' :: screamFrom false [] cs
            else screamFrom false [] cs := by
          rw [screamFrom_of_letter hc, Bool.and_false, if_neg Bool.false_ne_true]
          exact hopen (isSmall c) c.toUpper [] hupper
        constructor
        · intro done hdone
          rw [screamFrom_of_letter hc, Bool.and_false, if_neg Bool.false_ne_true, hnil]
          change screamFrom (isSmall c) _ _ = _
          rw [hopen _ _ _ hupper, List.reverse_cons, List.append_assoc, List.singleton_append]
        · intro afterSmall d done hd
          have hends : endsBefore afterSmall (c :: cs) = (c.isUpper && afterSmall) := by
            rw [endsBefore, Bool.eq_false_iff.mpr (mt isSeparator_iff.mp hc), Bool.false_or,
              Bool.and_comm]
          rw [screamFrom_of_letter hc, hends, hnil]
          change screamFrom (isSmall c) _ _ = _
          rw [hopen _ _ _ hupper]
          split <;> simp

theorem screamFrom_cons_separator (hc : isSeparator c = true) (cs : List Char) :
    screamFrom false [] (c :: cs) = screamFrom false [] cs := by
  rw [screamFrom_of_separator (isSeparator_iff.mp hc), if_pos (.inl rfl)]

theorem screamFrom_cons_letter (hc : ¬isSeparator c = true) (cs : List Char) :
    screamFrom false [] (c :: cs) = c.toUpper ::
      if endsBefore (isSmall c) cs then '_' :: screamFrom false [] cs
      else screamFrom false [] cs := by
  have hupper : c.toUpper ≠ '_' :=
    fun h => ne_of_not_isSeparator hc (eq_of_toUpper_eq_underscore h)
  rw [screamFrom_of_letter (mt isSeparator_iff.mpr hc), Bool.and_false, if_neg Bool.false_ne_true]
  exact (screamFrom_append cs).2 (isSmall c) c.toUpper [] hupper

/-! ## Spelling -/

theorem words_cons_ne_nil (hc : ¬isSeparator c = true) (cs : List Char) : words (c :: cs) ≠ [] := by
  induction cs generalizing c with
  | nil => simp [words, hc]
  | cons next cs ih =>
      rw [words, if_neg hc]
      split
      · exact List.cons_ne_nil _ _
      · rename_i hends
        have hnext : ¬isSeparator next = true := by
          intro hnext
          exact hends (.inr (by rw [endsBefore, hnext, Bool.true_or]))
        obtain ⟨word, rest, hwords⟩ := List.exists_cons_of_ne_nil (ih hnext)
        rw [hwords, List.modifyHead_cons]
        exact List.cons_ne_nil _ _

theorem getLast?_any_cons (hcs : cs ≠ []) :
    (c :: cs).getLast?.any isSeparator = cs.getLast?.any isSeparator := by
  cases cs with
  | nil => exact absurd rfl hcs
  | cons next cs => rw [List.getLast?_cons_cons]

theorem spelling_singleton (c : Char) :
    spelling [c] = if isSeparator c then [[]] else [[c.toUpper]] := by
  by_cases hc : isSeparator c = true <;> simp [spelling, words, hc]

theorem spelling_cons_separator (hc : isSeparator c = true) (hcs : cs ≠ []) :
    spelling (c :: cs) = spelling cs := by
  rw [spelling, words, if_pos hc, getLast?_any_cons hcs, spelling]

theorem spelling_cons_end (hc : ¬isSeparator c = true) (hcs : cs ≠ [])
    (hends : endsBefore (isSmall c) cs = true) :
    spelling (c :: cs) = [c.toUpper] :: spelling cs := by
  rw [spelling, words, if_neg hc, if_pos (.inr hends), getLast?_any_cons hcs, spelling]
  rfl

theorem spelling_cons_letter (hc : ¬isSeparator c = true) (hcs : cs ≠ [])
    (hends : ¬endsBefore (isSmall c) cs = true) :
    spelling (c :: cs) = (spelling cs).modifyHead (c.toUpper :: ·) := by
  have hnext : words cs ≠ [] := by
    cases cs with
    | nil => exact absurd rfl hcs
    | cons next cs =>
        apply words_cons_ne_nil
        intro hnext
        exact hends (by rw [endsBefore, hnext, Bool.true_or])
  obtain ⟨word, rest, hwords⟩ := List.exists_cons_of_ne_nil hnext
  rw [spelling, words, if_neg hc, if_neg (not_or.mpr ⟨hcs, hends⟩), getLast?_any_cons hcs, spelling,
    hwords]
  rfl

theorem spelling_ne_nil (hcs : cs ≠ []) : spelling cs ≠ [] := by
  induction cs with
  | nil => exact absurd rfl hcs
  | cons c cs ih =>
      by_cases hc : isSeparator c = true
      · by_cases hrest : cs = []
        · rw [hrest, spelling_singleton, if_pos hc]
          exact List.cons_ne_nil _ _
        · rw [spelling_cons_separator hc hrest]
          exact ih hrest
      · apply List.append_ne_nil_of_left_ne_nil
        rw [ne_eq, List.map_eq_nil_iff]
        exact words_cons_ne_nil hc cs

theorem underscore_notMem_of_mem_spelling {word : List Char} (h : word ∈ spelling cs) :
    '_' ∉ word := by
  induction cs generalizing word with
  | nil => cases h
  | cons c cs ih =>
      by_cases hc : isSeparator c = true
      · by_cases hcs : cs = []
        · rw [hcs, spelling_singleton, if_pos hc, List.mem_singleton] at h
          rw [h]
          exact List.not_mem_nil
        · rw [spelling_cons_separator hc hcs] at h
          exact ih h
      have hupper : '_' ≠ c.toUpper :=
        fun h => ne_of_not_isSeparator hc (eq_of_toUpper_eq_underscore h.symm)
      by_cases hcs : cs = []
      · rw [hcs, spelling_singleton, if_neg hc, List.mem_singleton] at h
        rw [h]
        exact List.not_mem_cons_of_ne_of_not_mem hupper List.not_mem_nil
      by_cases hends : endsBefore (isSmall c) cs = true
      · rw [spelling_cons_end hc hcs hends] at h
        rcases List.mem_cons.mp h with rfl | h
        · exact List.not_mem_cons_of_ne_of_not_mem hupper List.not_mem_nil
        · exact ih h
      · obtain ⟨first, rest, hspelling⟩ := List.exists_cons_of_ne_nil (spelling_ne_nil hcs)
        rw [spelling_cons_letter hc hcs hends, hspelling, List.modifyHead_cons] at h
        rw [hspelling] at ih
        rcases List.mem_cons.mp h with rfl | h
        · exact List.not_mem_cons_of_ne_of_not_mem hupper (ih List.mem_cons_self)
        · exact ih (List.mem_cons_of_mem first h)

/-! ## Reading -/

theorem intercalate_modifyHead {pieces : List (List Char)} (sep : Char) (h : pieces ≠ [])
    (c : Char) : [sep].intercalate (pieces.modifyHead (c :: ·)) = c :: [sep].intercalate pieces := by
  obtain ⟨piece, rest, rfl⟩ := List.exists_cons_of_ne_nil h
  cases rest with
  | nil => simp
  | cons next rest => simp [List.intercalate_cons_cons]

theorem screamFrom_eq (label : List Char) :
    screamFrom false [] label = ['_'].intercalate (spelling label) := by
  induction label with
  | nil => rfl
  | cons c cs ih =>
      by_cases hc : isSeparator c = true
      · rw [screamFrom_cons_separator hc, ih]
        by_cases hcs : cs = []
        · rw [hcs, spelling_singleton, if_pos hc]
          rfl
        · rw [spelling_cons_separator hc hcs]
      · rw [screamFrom_cons_letter hc, ih]
        by_cases hcs : cs = []
        · rw [hcs, spelling_singleton, if_neg hc]
          rfl
        by_cases hends : endsBefore (isSmall c) cs = true
        · rw [if_pos hends, spelling_cons_end hc hcs hends]
          obtain ⟨next, rest, hrest⟩ := List.exists_cons_of_ne_nil (spelling_ne_nil hcs)
          rw [hrest, List.intercalate_cons_cons]
          rfl
        · rw [if_neg hends, spelling_cons_letter hc hcs hends,
            intercalate_modifyHead '_' (spelling_ne_nil hcs)]

theorem screaming_inj {label other : String} (hlabel : label ≠ "") (hother : other ≠ "") :
    screaming label = screaming other ↔ spelling label.toList = spelling other.toList := by
  rw [← String.toList_eq_nil_iff.ne] at hlabel hother
  simp only [screaming, String.ofList_inj, screamFrom_eq]
  constructor
  · intro h
    have hcut := congrArg (Text.splitAll '_') h
    rwa [Text.splitAll_intercalate (spelling_ne_nil hlabel)
        fun _ => underscore_notMem_of_mem_spelling,
      Text.splitAll_intercalate (spelling_ne_nil hother)
        fun _ => underscore_notMem_of_mem_spelling] at hcut
  · intro h
    rw [h]

theorem screamFrom_eq_nil_iff : screamFrom false [] label = [] ↔ words label = [] := by
  induction label with
  | nil => simp [screamFrom, words]
  | cons c cs ih =>
      by_cases hc : isSeparator c = true
      · rw [screamFrom_cons_separator hc, ih, words, if_pos hc]
      · rw [screamFrom_cons_letter hc]
        simp only [words_cons_ne_nil hc, iff_false]
        exact List.cons_ne_nil _ _

theorem screaming_eq_empty_iff {label : String} :
    screaming label = "" ↔ words label.toList = [] := by
  rw [screaming, String.ofList_eq_empty_iff, screamFrom_eq_nil_iff]

end TypeLang.Casing
