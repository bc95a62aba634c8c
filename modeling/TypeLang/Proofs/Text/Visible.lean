import Mathlib
import TypeLang.Name
import TypeLang.Text.Blank
import TypeLang.Text.Utf8

/-!
# Visible characters

The characters that show on paper: printable ASCII without the blank. A text of visible characters
is left alone by trimming, and each of them is a byte of its own.
-/

namespace TypeLang.Text

def isVisible (c : Char) : Bool :=
  0x21 ≤ c.toNat && c.toNat ≤ 0x7e

theorem isVisible_iff {c : Char} : isVisible c = true ↔ 0x21 ≤ c.toNat ∧ c.toNat ≤ 0x7e := by
  simp [isVisible]

theorem isBlank_of_isVisible {c : Char} (h : isVisible c = true) : isBlank c = false := by
  rw [isVisible_iff] at h
  simp only [isBlank, Bool.or_eq_false_iff, Bool.and_eq_false_iff, decide_eq_false_iff_not,
    beq_eq_false_iff_ne]
  omega

theorem isIdentifierChar_iff {c : Char} : isIdentifierChar c = true ↔
    (0x41 ≤ c.toNat ∧ c.toNat ≤ 0x5a ∨ 0x61 ≤ c.toNat ∧ c.toNat ≤ 0x7a) ∨
      (0x30 ≤ c.toNat ∧ c.toNat ≤ 0x39) ∨ c.toNat = 0x5f := by
  have hunderscore : c = '_' ↔ c.toNat = 0x5f :=
    ⟨fun h => by rw [h]; rfl, fun h => Char.toNat_inj.mp h⟩
  simp only [isIdentifierChar, Char.isAlphanum, Char.isAlpha, Char.isUpper, Char.isLower,
    Char.isDigit, Bool.or_eq_true, Bool.and_eq_true, decide_eq_true_eq, beq_iff_eq, hunderscore,
    UInt32.le_iff_toNat_le, ge_iff_le, or_assoc]
  rfl

theorem isVisible_of_isIdentifierChar {c : Char} (h : isIdentifierChar c = true) :
    isVisible c = true := by
  rw [isIdentifierChar_iff] at h
  rw [isVisible_iff]
  omega

/-! ## Trimming -/

theorem dropEndWhile_of_last {p : Char → Bool} {cs : List Char}
    (h : ∀ c, cs.getLast? = some c → p c = false) : dropEndWhile p cs = cs := by
  unfold dropEndWhile
  cases hlast : cs.getLast? with
  | none => simp
  | some c => simp [h c hlast]

theorem trimChars_of_ends {cs : List Char} (hfirst : ∀ c, cs.head? = some c → isBlank c = false)
    (hlast : ∀ c, cs.getLast? = some c → isBlank c = false) : trimChars cs = cs := by
  unfold trimChars
  have hdrop : cs.dropWhile isBlank = cs := by
    cases cs with
    | nil => rfl
    | cons c cs => rw [List.dropWhile_cons, hfirst c rfl]; rfl
  rw [hdrop]
  exact dropEndWhile_of_last hlast

theorem trimChars_of_visible {cs : List Char} (h : ∀ c ∈ cs, isVisible c = true) :
    trimChars cs = cs :=
  trimChars_of_ends (fun c hc => isBlank_of_isVisible (h c (List.mem_of_head? hc)))
    fun c hc => isBlank_of_isVisible (h c (List.mem_of_getLast? hc))

theorem exists_dropEndWhile (p : Char → Bool) (cs : List Char) :
    ∃ back, cs = dropEndWhile p cs ++ back ∧ ∀ c ∈ back, p c = true := by
  unfold dropEndWhile
  split
  · refine ⟨(cs.reverse.takeWhile p).reverse, ?_, fun c hc => ?_⟩
    · rw [← List.reverse_append, List.takeWhile_append_dropWhile, List.reverse_reverse]
    · exact List.mem_takeWhile_imp (List.mem_reverse.mp hc)
  · exact ⟨[], by simp, nofun⟩

theorem exists_trimChars (cs : List Char) :
    ∃ front back, cs = front ++ (trimChars cs ++ back) ∧ ∀ c ∈ front ++ back, isBlank c = true := by
  obtain ⟨back, hback, hblank⟩ := exists_dropEndWhile isBlank (cs.dropWhile isBlank)
  refine ⟨cs.takeWhile isBlank, back, ?_, fun c hc => ?_⟩
  · conv => lhs; rw [← List.takeWhile_append_dropWhile (p := isBlank) (l := cs), hback]
    rfl
  · rcases List.mem_append.mp hc with hc | hc
    · exact List.mem_takeWhile_imp hc
    · exact hblank c hc

theorem dropEndWhile_eq_rdropWhile (p : Char → Bool) (cs : List Char) :
    dropEndWhile p cs = cs.rdropWhile p := by
  unfold dropEndWhile
  split
  · rfl
  · rename_i hlast
    rw [eq_comm, List.rdropWhile_eq_self_iff]
    intro hne hp
    rw [List.getLast?_eq_some_getLast hne] at hlast
    exact hlast hp

theorem trimChars_surrounded {front back : List Char} (cs : List Char)
    (hfront : ∀ c ∈ front, isBlank c = true) (hback : ∀ c ∈ back, isBlank c = true) :
    trimChars (front ++ (cs ++ back)) = trimChars cs := by
  unfold trimChars
  rw [List.dropWhile_append_of_pos hfront, dropEndWhile_eq_rdropWhile, dropEndWhile_eq_rdropWhile,
    List.dropWhile_append]
  split
  · rename_i hempty
    rw [List.dropWhile_eq_nil_iff.mpr hback, List.isEmpty_iff.mp hempty]
  · rw [List.rdropWhile, List.reverse_append, List.dropWhile_append_of_pos (by simpa using hback)]
    rfl

/-! ## Bytes -/

theorem toUtf8_eq (s : String) : toUtf8 s = s.toList.flatMap String.utf8EncodeChar := by
  conv => lhs; rw [← String.ofList_toList (s := s)]
  rw [toUtf8, String.toByteArray_ofList]
  simp [List.utf8Encode]

theorem toUtf8_append (s t : String) : toUtf8 (s ++ t) = toUtf8 s ++ toUtf8 t := by
  rw [toUtf8_eq, toUtf8_eq, toUtf8_eq, String.toList_append, List.flatMap_append]

/-- A byte below 128 is that of a character, which has no other byte. -/
theorem toNat_eq_of_mem_utf8EncodeChar {c : Char} {b : UInt8} (h : b ∈ String.utf8EncodeChar c)
    (hb : b.toNat < 0x80) : c.toNat = b.toNat := by
  unfold String.utf8EncodeChar at h
  dsimp only at h
  split at h
  · rw [List.mem_singleton] at h
    rw [h, UInt8.toNat_ofNat']
    change c.val.toNat = _
    omega
  · -- In a longer encoding, every byte has its highest bit set.
    exfalso
    split at h
    · simp only [List.mem_cons, List.not_mem_nil, or_false] at h
      rcases h with rfl | rfl <;> rw [UInt8.toNat_ofNat'] at hb <;> omega
    · split at h <;> simp only [List.mem_cons, List.not_mem_nil, or_false] at h
      · rcases h with rfl | rfl | rfl <;> rw [UInt8.toNat_ofNat'] at hb <;> omega
      · rcases h with rfl | rfl | rfl | rfl <;> rw [UInt8.toNat_ofNat'] at hb <;> omega

theorem exists_of_mem_toUtf8 {s : String} {b : UInt8} (h : b ∈ toUtf8 s) (hb : b.toNat < 0x80) :
    ∃ c ∈ s.toList, c.toNat = b.toNat := by
  rw [toUtf8_eq] at h
  obtain ⟨c, hc, hmem⟩ := List.mem_flatMap.mp h
  exact ⟨c, hc, toNat_eq_of_mem_utf8EncodeChar hmem hb⟩

/-- A text without some characters of one byte each has none of their bytes. -/
theorem notMem_of_mem_toUtf8 {s : String} {cs : List Char} (hlow : ∀ c ∈ cs, c.toNat < 0x80)
    (h : ∀ c ∈ s.toList, c ∉ cs) : ∀ b ∈ toUtf8 s, b ∉ cs.map (UInt8.ofNat ·.toNat) := by
  intro b hb hmem
  obtain ⟨c, hc, rfl⟩ := List.mem_map.mp hmem
  have hcode : (UInt8.ofNat c.toNat).toNat = c.toNat := by
    rw [UInt8.toNat_ofNat']
    have hc' := hlow c hc
    omega
  obtain ⟨d, hd, hsame⟩ := exists_of_mem_toUtf8 hb (by rw [hcode]; exact hlow c hc)
  obtain rfl : d = c := Char.toNat_inj.mp (hsame.trans hcode)
  exact h d hd hc

theorem toNat_eq_of_toUtf8_eq_cons {s : String} {b : UInt8} {more : List UInt8}
    (h : toUtf8 s = b :: more) (hb : b.toNat < 0x80) :
    ∃ c cs, s.toList = c :: cs ∧ c.toNat = b.toNat := by
  rw [toUtf8_eq] at h
  cases hs : s.toList with
  | nil =>
      rw [hs] at h
      cases h
  | cons c cs =>
      rw [hs, List.flatMap_cons] at h
      cases hc : String.utf8EncodeChar c with
      | nil =>
          have hlength := String.length_utf8EncodeChar c
          rw [hc] at hlength
          exact absurd hlength.symm (Nat.ne_of_gt c.utf8Size_pos)
      | cons first others =>
          rw [hc, List.cons_append] at h
          obtain ⟨rfl, -⟩ := List.cons.inj h
          have hmem : first ∈ String.utf8EncodeChar c := by
            rw [hc]
            exact List.mem_cons_self
          exact ⟨c, cs, rfl, toNat_eq_of_mem_utf8EncodeChar hmem hb⟩

theorem utf8EncodeChar_of_isVisible {c : Char} (h : isVisible c = true) :
    String.utf8EncodeChar c = [UInt8.ofNat c.toNat] := by
  rw [isVisible_iff] at h
  have hle : c.val.toNat ≤ 127 := by
    change c.toNat ≤ 127
    omega
  unfold String.utf8EncodeChar
  simp only [hle, if_true]
  rfl

theorem toUtf8_of_toList_eq {s : String} {a b : List Char} {c : Char} (hc : isVisible c = true)
    (h : s.toList = a ++ c :: b) :
    toUtf8 s = toUtf8 (String.ofList a) ++ UInt8.ofNat c.toNat :: toUtf8 (String.ofList b) := by
  rw [toUtf8_eq, toUtf8_eq, toUtf8_eq, h, String.toList_ofList, String.toList_ofList,
    List.flatMap_append, List.flatMap_cons, utf8EncodeChar_of_isVisible hc]
  rfl

end TypeLang.Text
