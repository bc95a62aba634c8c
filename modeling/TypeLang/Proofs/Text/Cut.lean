import TypeLang.TypeExpr.Parser

/-!
# Joining and cutting

What was joined is cut into the same parts again.
-/

namespace TypeLang.Text

theorem dropHead?_append (head rest : List Char) : dropHead? head (head ++ rest) = some rest := by
  induction head with
  | nil => rfl
  | cons c head ih => simp [dropHead?, ih]

/-- A text without one of the characters of `head` does not start with it. -/
theorem dropHead?_eq_none {head cs : List Char} {c : Char} (hhead : c ∈ head) (hcs : c ∉ cs) :
    dropHead? head cs = none := by
  rw [Option.eq_none_iff_forall_ne_some]
  rintro rest h
  apply hcs
  rw [dropHead?_eq_some h]
  exact List.mem_append_left rest hhead

theorem dropLast?_concat (last : Char) (cs : List Char) :
    dropLast? last (cs ++ [last]) = some cs := by
  rw [dropLast?, List.getLast?_concat, if_pos rfl, List.dropLast_concat]

/-! ## Pieces -/

theorem splitAll_ne_nil (sep : Char) (cs : List Char) : splitAll sep cs ≠ [] := by
  fun_induction splitAll sep cs <;> simp

theorem splitAll_of_not_mem {sep : Char} {piece : List Char} (h : sep ∉ piece) :
    splitAll sep piece = [piece] := by
  induction piece with
  | nil => rfl
  | cons c piece ih =>
      simp only [List.mem_cons, not_or] at h
      rw [splitAll, ih h.2]
      simp only [Ne.symm h.1, if_false]

theorem splitAll_append {sep : Char} {piece : List Char} (h : sep ∉ piece) (rest : List Char) :
    splitAll sep (piece ++ sep :: rest) = piece :: splitAll sep rest := by
  induction piece with
  | nil =>
      obtain ⟨first, others, hrest⟩ := List.exists_cons_of_ne_nil (splitAll_ne_nil sep rest)
      rw [List.nil_append, splitAll, hrest]
      simp only [if_true]
  | cons c piece ih =>
      simp only [List.mem_cons, not_or] at h
      rw [List.cons_append, splitAll, ih h.2]
      simp only [Ne.symm h.1, if_false]

theorem splitAll_intercalate {sep : Char} {pieces : List (List Char)} (hne : pieces ≠ [])
    (h : ∀ piece ∈ pieces, sep ∉ piece) : splitAll sep ([sep].intercalate pieces) = pieces := by
  induction pieces with
  | nil => exact absurd rfl hne
  | cons piece pieces ih =>
      have hpiece := h piece List.mem_cons_self
      cases pieces with
      | nil =>
          rw [List.intercalate_singleton]
          exact splitAll_of_not_mem hpiece
      | cons next pieces =>
          rw [List.intercalate_cons_cons, List.append_assoc, List.singleton_append,
            splitAll_append hpiece, ih (List.cons_ne_nil next pieces)
              fun other hother => h other (List.mem_cons_of_mem piece hother)]

theorem intercalate_splitAll (sep : Char) (cs : List Char) :
    [sep].intercalate (splitAll sep cs) = cs := by
  induction cs with
  | nil => rfl
  | cons c cs ih =>
      obtain ⟨first, others, hsplit⟩ := List.exists_cons_of_ne_nil (splitAll_ne_nil sep cs)
      rw [hsplit] at ih
      simp only [splitAll, hsplit]
      by_cases hc : c = sep
      · rw [if_pos hc, List.intercalate_cons_cons, ih, hc]
        rfl
      · rw [if_neg hc]
        cases others with
        | nil => simpa using ih
        | cons next others =>
            rw [List.intercalate_cons_cons] at ih ⊢
            rw [← ih]
            rfl

theorem mem_intercalate {sep c : Char} {pieces : List (List Char)}
    (h : c ∈ [sep].intercalate pieces) : c = sep ∨ ∃ piece ∈ pieces, c ∈ piece := by
  induction pieces with
  | nil => cases h
  | cons piece pieces ih =>
      cases pieces with
      | nil =>
          rw [List.intercalate_singleton] at h
          exact .inr ⟨piece, List.mem_cons_self, h⟩
      | cons next pieces =>
          rw [List.intercalate_cons_cons, List.append_assoc] at h
          rcases List.mem_append.mp h with h | h
          · exact .inr ⟨piece, List.mem_cons_self, h⟩
          rcases List.mem_append.mp h with h | h
          · exact .inl (List.mem_singleton.mp h)
          rcases ih h with h | ⟨other, hother, h⟩
          · exact .inl h
          · exact .inr ⟨other, List.mem_cons_of_mem piece hother, h⟩

theorem exists_intercalate_concat (sep : String) (texts : List String) (last : String) :
    ∃ front, sep.intercalate (texts ++ [last]) = front ++ last := by
  induction texts with
  | nil => exact ⟨"", by simp⟩
  | cons text texts ih =>
      obtain ⟨front, hfront⟩ := ih
      obtain ⟨next, others, hrest⟩ := List.exists_cons_of_ne_nil (l := texts ++ [last]) (by simp)
      refine ⟨text ++ sep ++ front, ?_⟩
      rw [List.cons_append, hrest, String.intercalate_cons_cons, ← hrest, hfront,
        ← String.append_assoc]

end TypeLang.Text
