import Mathlib.Data.Nat.Bitwise
import TypeLang.Codec.Presence
import TypeLang.Proofs.Plan.Draft

/-!
# Presence bits

Which fields a flags word tells about, and which bits of its value are set. A word that is declared
again under the same name tells only about the fields behind its last declaration: `mem_bits_iff`
is exact about this, and `testBit_flagsWord` follows from it.
-/

namespace TypeLang

namespace FieldPlan

def isWord (word : String) (f : FieldPlan) : Bool :=
  f.valueType.isFlagsWord && f.name == word

end FieldPlan

namespace Layout

/-! ## The table of presence bits -/

/-- A parameter that a word tells about: it is gated by the word, which is not declared again. -/
def Tells (params : List Parameter) (word : String) (b : PresenceBit) : Prop :=
  ∃ front q back, params = front ++ q :: back ∧ q.type.flag? = some ⟨word, b.bit⟩ ∧
    q.name = b.field ∧ ∀ r ∈ q :: back, r.isWord word = false

theorem tells_concat {params : List Parameter} {q : Parameter} {word : String} {b : PresenceBit} :
    Tells (params ++ [q]) word b ↔
      q.isWord word = false ∧
        (Tells params word b ∨ q.type.flag? = some ⟨word, b.bit⟩ ∧ q.name = b.field) := by
  constructor
  · rintro ⟨front, r, back, hsplit, hflag, hname, hback⟩
    rcases List.eq_nil_or_concat back with rfl | ⟨back, last, rfl⟩
    · obtain ⟨-, hq⟩ := List.append_inj' hsplit rfl
      obtain rfl := List.singleton_inj.mp hq
      exact ⟨hback _ List.mem_cons_self, .inr ⟨hflag, hname⟩⟩
    · rw [List.concat_eq_append, ← List.cons_append, ← List.append_assoc] at hsplit
      obtain ⟨rfl, hq⟩ := List.append_inj' hsplit rfl
      obtain rfl := List.singleton_inj.mp hq
      refine ⟨hback _ (by simp), .inl ⟨front, r, back, rfl, hflag, hname, ?_⟩⟩
      intro s hs
      rw [List.concat_eq_append, ← List.cons_append] at hback
      exact hback s (List.mem_append_left _ hs)
  · rintro ⟨hq, ⟨front, r, back, rfl, hflag, hname, hback⟩ | ⟨hflag, hname⟩⟩
    · refine ⟨front, r, back ++ [q], by simp, hflag, hname, ?_⟩
      intro s hs
      rw [← List.cons_append, List.mem_append, List.mem_singleton] at hs
      rcases hs with hs | rfl
      · exact hback s hs
      · exact hq
    · refine ⟨params, q, [], rfl, hflag, hname, ?_⟩
      intro s hs
      rw [List.mem_singleton.mp hs]
      exact hq

theorem mem_presenceOf {params : List Parameter} {word : String}
    (hword : params.any (·.isWord word)) (b : PresenceBit) :
    b ∈ ((presenceOf params).lookup word).getD [] ↔ Tells params word b := by
  induction params using List.reverseRecOn with
  | nil => cases hword
  | append_singleton params q ih =>
      rw [presenceOf_concat, lookup_addPresence, tells_concat]
      by_cases hq : q.isWord word
      · simp [hq]
      · have hparams : params.any (·.isWord word) := by
          rw [List.any_append, Bool.or_eq_true] at hword
          simpa [hq] using hword
        specialize ih hparams
        obtain ⟨bits, hbits⟩ : ∃ bits, (presenceOf params).lookup word = some bits := by
          rw [← Option.isSome_iff_exists, isSome_lookup_presenceOf]
          exact hparams
        rw [hbits, Option.getD_some] at ih
        rw [if_neg hq, hbits]
        cases hflag : q.type.flag? with
        | none => simpa [hq] using ih
        | some flag =>
            obtain ⟨gate, bit⟩ := flag
            by_cases hgate : word = gate
            · subst hgate
              obtain ⟨bit', field⟩ := b
              simp only [BEq.rfl, if_true, Option.map_some, Option.getD_some, List.mem_append,
                List.mem_singleton, ih, hq, true_and, Option.some.injEq, Flag.mk.injEq,
                PresenceBit.mk.injEq, eq_comm]
            · simpa [hq, hgate, Ne.symm hgate] using ih

/-! ## Planned layouts -/

def IsPlanned (l : Layout) : Prop :=
  ∃ d, ofDeclaration d = .ok l

theorem missingWord?_eq_none {declared : List String} {front back : List Parameter} {q : Parameter}
    {flag : Flag} (h : missingWord? declared (front ++ q :: back) = none)
    (hflag : q.type.flag? = some flag) :
    flag.word ∈ declared ∨ ∃ r ∈ front, r.isWord flag.word := by
  induction front generalizing declared with
  | nil =>
      rw [List.nil_append, missingWord?, hflag] at h
      simp only at h
      split at h
      · rename_i hdeclared
        exact .inl (by simpa using hdeclared)
      · cases h
  | cons r front ih =>
      rw [List.cons_append, missingWord?] at h
      have hrest : missingWord? (if r.declaresWord then r.name :: declared else declared)
          (front ++ q :: back) = none := by
        cases hr : r.type.flag? with
        | none => simpa [hr] using h
        | some gate =>
            rw [hr] at h
            simp only at h
            split at h
            · exact h
            · cases h
      rcases ih hrest with hdeclared | ⟨s, hs, hword⟩
      · by_cases hr : r.declaresWord
        · rw [if_pos hr, List.mem_cons] at hdeclared
          rcases hdeclared with hname | hdeclared
          · exact .inr ⟨r, List.mem_cons_self, by simp [Parameter.isWord, hr, hname]⟩
          · exact .inl hdeclared
        · rw [if_neg hr] at hdeclared
          exact .inl hdeclared
      · exact .inr ⟨s, List.mem_cons_of_mem _ hs, hword⟩

/-- The field is gated by the bit, and no word of that name is declared behind it. -/
def Gates (l : Layout) (flag : Flag) (f : FieldPlan) : Prop :=
  ∃ front back, l.fields = front ++ f :: back ∧ f.flag? = some flag ∧
    ∀ g ∈ f :: back, g.isWord flag.word = false

variable {l : Layout} {f : FieldPlan}

theorem exists_word (h : l.IsPlanned) {front back : List FieldPlan} {flag : Flag}
    (hsplit : l.fields = front ++ f :: back) (hflag : f.flag? = some flag) :
    ∃ g ∈ front, g.isWord flag.word := by
  obtain ⟨d, hd⟩ := h
  obtain ⟨hmissing, -, hfields, -⟩ := ofDeclaration_eq_ok hd
  rw [hfields] at hsplit
  obtain ⟨params, rest, hparams, rfl, hrest⟩ := List.map_eq_append_iff.mp hsplit
  obtain ⟨q, tail, rfl, rfl, rfl⟩ := List.map_eq_cons_iff.mp hrest
  rw [hparams] at hmissing
  rcases missingWord?_eq_none hmissing hflag with hnone | ⟨r, hr, hword⟩
  · cases hnone
  · exact ⟨_, List.mem_map_of_mem hr, hword⟩

/-- The bits of a word are those of the fields that its last declaration tells about. -/
theorem mem_bits_iff (h : l.IsPlanned) {word : String} {b : PresenceBit} :
    b ∈ l.bits word ↔ ∃ f, l.Gates ⟨word, b.bit⟩ f ∧ f.name = b.field := by
  have hplanned := h
  obtain ⟨d, hd⟩ := h
  obtain ⟨-, hpresence, hfields, -⟩ := ofDeclaration_eq_ok hd
  unfold bits
  rw [hpresence]
  by_cases hword : d.params.any (·.isWord word)
  · rw [mem_presenceOf hword]
    constructor
    · rintro ⟨front, q, back, hsplit, hflag, hname, hback⟩
      refine ⟨fieldPlan (presenceOf d.params) q, ⟨front.map (fieldPlan (presenceOf d.params)),
        back.map (fieldPlan (presenceOf d.params)), ?_, hflag, ?_⟩, hname⟩
      · rw [hfields, hsplit, List.map_append, List.map_cons]
      · rw [← List.map_cons]
        intro g hg
        obtain ⟨r, hr, rfl⟩ := List.mem_map.mp hg
        exact hback r hr
    · rintro ⟨f, ⟨front, back, hsplit, hflag, hback⟩, hname⟩
      rw [hfields] at hsplit
      obtain ⟨params, rest, hparams, rfl, hrest⟩ := List.map_eq_append_iff.mp hsplit
      obtain ⟨q, tail, rfl, rfl, rfl⟩ := List.map_eq_cons_iff.mp hrest
      refine ⟨params, q, tail, hparams, hflag, hname, ?_⟩
      intro r hr
      exact hback _ (List.map_cons ▸ List.mem_map_of_mem hr)
  · have hnone : (presenceOf d.params).lookup word = none := by
      rw [← Option.not_isSome_iff_eq_none, isSome_lookup_presenceOf]
      exact hword
    rw [hnone]
    constructor
    · intro hb
      cases hb
    · rintro ⟨f, ⟨front, back, hsplit, hflag, -⟩, -⟩
      obtain ⟨g, hg, hgate⟩ := exists_word hplanned hsplit hflag
      rw [hfields] at hsplit
      obtain ⟨params, rest, hparams, rfl, -⟩ := List.map_eq_append_iff.mp hsplit
      obtain ⟨r, hr, rfl⟩ := List.mem_map.mp hg
      refine absurd (List.any_eq_true.mpr ⟨r, ?_, hgate⟩) hword
      rw [hparams]
      exact List.mem_append_left _ hr

/-! ## The value of a flags word -/

theorem toNat_mask (b : PresenceBit) : b.mask.toNat = 2 ^ b.bit.val := by
  have hshift : ∀ i : Fin 32, ((1 : UInt32) <<< UInt32.ofNat i.val).toNat = 2 ^ i.val := by decide
  exact hshift b.bit

private theorem testBit_foldl_or (bits : List PresenceBit) (word : UInt32) (i : Fin 32) :
    (bits.foldl (fun w b => w ||| b.mask) word).toNat.testBit i =
      (word.toNat.testBit i || bits.any (·.bit == i)) := by
  induction bits generalizing word with
  | nil => simp
  | cons b bits ih =>
      rw [List.foldl_cons, ih, UInt32.toNat_or, Nat.testBit_or, toNat_mask, Nat.testBit_two_pow,
        List.any_cons, Bool.or_assoc]
      congr 2
      rw [Bool.eq_iff_iff, decide_eq_true_iff, beq_iff_eq, Fin.ext_iff]

/-- A bit of a flags word is set exactly if some field that it tells about is there. -/
theorem testBit_flagsWord (h : l.IsPlanned) (fields : Fields) (flag : Flag) :
    (l.flagsWord fields flag.word).toNat.testBit flag.bit ↔
      ∃ f, l.Gates flag f ∧ l.isPresent fields f.name := by
  unfold flagsWord
  rw [testBit_foldl_or]
  simp only [UInt32.toNat_zero, Nat.zero_testBit, Bool.false_or, List.any_eq_true,
    List.mem_filter, mem_bits_iff h, beq_iff_eq]
  constructor
  · rintro ⟨b, ⟨⟨f, hf, hname⟩, hpresent⟩, hbit⟩
    rw [hbit] at hf
    rw [← hname] at hpresent
    exact ⟨f, hf, hpresent⟩
  · rintro ⟨f, hf, hpresent⟩
    exact ⟨⟨flag.bit, f.name⟩, ⟨⟨f, hf, rfl⟩, hpresent⟩, rfl⟩

end Layout

theorem Flag.and_mask_ne_zero_iff (flag : Flag) (word : UInt32) :
    word &&& flag.mask ≠ 0 ↔ word.toNat.testBit flag.bit := by
  have hmask : flag.mask.toNat = 2 ^ flag.bit.val := Layout.toNat_mask ⟨flag.bit, ""⟩
  rw [ne_eq, ← UInt32.toNat_inj, UInt32.toNat_and, hmask, Nat.and_two_pow]
  cases word.toNat.testBit flag.bit <;> simp

end TypeLang
