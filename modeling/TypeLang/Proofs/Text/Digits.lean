import Mathlib
import TypeLang.Proofs.Text.Visible
import TypeLang.Text.Number

/-!
# Reading printed numbers

The digits that print a number spell it.
-/

namespace TypeLang.Text

theorem digitsFrom?_append (radix acc : Nat) (cs ds : List Char) :
    digitsFrom? radix acc (cs ++ ds) =
      (digitsFrom? radix acc cs).bind fun value => digitsFrom? radix value ds := by
  induction cs generalizing acc with
  | nil => rfl
  | cons c cs ih =>
      rw [List.cons_append, digitsFrom?, digitsFrom?]
      cases digit? radix c with
      | none => rfl
      | some d => exact ih (acc * radix + d)

theorem digit?_eq (radix : Nat) (c : Char) : digit? radix c =
    (if 0x30 ≤ c.toNat ∧ c.toNat ≤ 0x39 then some (c.toNat - 0x30)
      else if 0x61 ≤ c.toNat ∧ c.toNat ≤ 0x7a then some (c.toNat - 0x61 + 10)
      else if 0x41 ≤ c.toNat ∧ c.toNat ≤ 0x5a then some (c.toNat - 0x41 + 10)
      else none).filter (· < radix) := by
  unfold digit?
  simp only [Char.le_def, UInt32.le_iff_toNat_le]
  rfl

theorem isIdentifierChar_of_digit? {radix d : Nat} {c : Char} (h : digit? radix c = some d) :
    isIdentifierChar c = true := by
  rw [isIdentifierChar_iff]
  rw [digit?_eq] at h
  split at h
  · omega
  · split at h
    · omega
    · split at h
      · omega
      · cases h

theorem exists_digit?_of_digitsFrom? {radix acc n : Nat} {cs : List Char}
    (h : digitsFrom? radix acc cs = some n) : ∀ c ∈ cs, ∃ d, digit? radix c = some d := by
  induction cs generalizing acc with
  | nil => simp
  | cons first cs ih =>
      obtain ⟨d, hd, hrest⟩ := Option.bind_eq_some_iff.mp h
      intro c hc
      rcases List.mem_cons.mp hc with rfl | hc
      · exact ⟨d, hd⟩
      · exact ih hrest c hc

theorem exists_digit?_of_digits? {radix n : Nat} {cs : List Char} (h : digits? radix cs = some n) :
    ∀ c ∈ cs, ∃ d, digit? radix c = some d := by
  unfold digits? at h
  split at h
  · cases h
  · exact exists_digit?_of_digitsFrom? h

theorem isIdentifierChar_of_digits? {radix n : Nat} {cs : List Char}
    (h : digits? radix cs = some n) : ∀ c ∈ cs, isIdentifierChar c = true := by
  intro c hc
  obtain ⟨d, hd⟩ := exists_digit?_of_digits? h c hc
  exact isIdentifierChar_of_digit? hd

theorem isIdentifierChar_of_natBelow? {radix bound n : Nat} {cs : List Char}
    (h : natBelow? radix bound cs = some n) : ∀ c ∈ cs, c = '+' ∨ isIdentifierChar c = true := by
  unfold natBelow? at h
  intro c hc
  split at h
  · have hdigits := isIdentifierChar_of_digits? (Option.filter_eq_some_iff.mp h).1
    rcases List.mem_cons.mp hc with rfl | hc
    · exact .inl rfl
    · exact .inr (hdigits c hc)
  · exact .inr (isIdentifierChar_of_digits? (Option.filter_eq_some_iff.mp h).1 c hc)

theorem natBelow?_eq_filter {radix bound n : Nat} {cs : List Char} (h : digits? radix cs = some n) :
    natBelow? radix bound cs = (some n).filter (· < bound) := by
  unfold natBelow?
  split
  · exact absurd (isIdentifierChar_of_digits? h '+' List.mem_cons_self) (by decide)
  · simp only [h]

theorem natBelow?_of_digits {radix bound n : Nat} {cs : List Char} (h : digits? radix cs = some n)
    (hn : n < bound) : natBelow? radix bound cs = some n := by
  simp only [natBelow?_eq_filter h, Option.filter_some, hn, decide_true, if_true]

theorem uint32?_of_digits {radix : Nat} {cs : List Char} {n : UInt32}
    (h : digits? radix cs = some n.toNat) : uint32? radix cs = some n := by
  rw [uint32?, natBelow?_of_digits h n.toNat_lt, Option.map_some, UInt32.ofNat_toNat]

theorem uint32?_plus {radix : Nat} {cs : List Char} {n : UInt32}
    (h : digits? radix cs = some n.toNat) : uint32? radix ('+' :: cs) = some n := by
  rw [uint32?, natBelow?, h, Option.filter_some, if_pos (decide_eq_true n.toNat_lt),
    Option.map_some, UInt32.ofNat_toNat]

theorem exists_digits?_of_uint32? {radix : Nat} {cs : List Char} {n : UInt32}
    (h : uint32? radix cs = some n) :
    ∃ digits, (cs = digits ∨ cs = '+' :: digits) ∧ digits? radix digits = some n.toNat := by
  obtain ⟨value, hvalue, rfl⟩ := Option.map_eq_some_iff.mp h
  unfold natBelow? at hvalue
  obtain ⟨hdigits, hlt⟩ := Option.filter_eq_some_iff.mp hvalue
  have hn : (UInt32.ofNat value).toNat = value := UInt32.toNat_ofNat_of_lt' (of_decide_eq_true hlt)
  rw [hn]
  split at hdigits
  · exact ⟨_, .inr rfl, hdigits⟩
  · exact ⟨cs, .inl rfl, hdigits⟩

theorem utf8Size_of_isVisible {c : Char} (h : isVisible c = true) : c.utf8Size = 1 := by
  rw [← String.length_utf8EncodeChar, utf8EncodeChar_of_isVisible h, List.length_singleton]

theorem utf8ByteSize_of_uint32? {radix : Nat} {cs : List Char} {n : UInt32}
    (h : uint32? radix cs = some n) : (String.ofList cs).utf8ByteSize = cs.length := by
  obtain ⟨value, hvalue, -⟩ := Option.map_eq_some_iff.mp h
  have hsizes : ∀ c ∈ cs, c.utf8Size = 1 := by
    intro c hc
    rcases isIdentifierChar_of_natBelow? hvalue c hc with rfl | hdigit
    · rfl
    · exact utf8Size_of_isVisible (isVisible_of_isIdentifierChar hdigit)
  rw [String.utf8ByteSize_ofList]
  clear h hvalue
  induction cs with
  | nil => rfl
  | cons c cs ih =>
      obtain ⟨hc, hcs⟩ := List.forall_mem_cons.mp hsizes
      rw [String.utf8Len_cons, List.length_cons, ih hcs, hc]

/-! ## Hexadecimal digits -/

theorem digit?_hexDigit : ∀ d < 16, digit? 16 (hexDigit d) = some d := by
  decide

theorem length_hexDigits (width n : Nat) : (hexDigits width n).length = width := by
  induction width generalizing n with
  | zero => rfl
  | succ width ih => rw [hexDigits, List.length_append, ih, List.length_singleton]

theorem digitsFrom?_hexDigits (width n acc : Nat) :
    digitsFrom? 16 acc (hexDigits width n) = some (acc * 16 ^ width + n % 16 ^ width) := by
  induction width generalizing n with
  | zero => simp [hexDigits, digitsFrom?, Nat.mod_one]
  | succ width ih =>
      rw [hexDigits, digitsFrom?_append, ih, Option.bind_some, digitsFrom?,
        digit?_hexDigit _ (Nat.mod_lt _ (by decide)), Option.bind_some, digitsFrom?, Nat.pow_succ,
        Nat.mul_comm (16 ^ width) 16, Nat.mod_mul, Nat.add_mul]
      congr 1
      rw [Nat.mul_comm 16 (16 ^ width), Nat.mul_assoc]
      omega

theorem digits?_hex8 (n : UInt32) : digits? 16 (hex8 n).toList = some n.toNat := by
  have hne : hexDigits 8 n.toNat ≠ [] := by
    rw [ne_eq, ← List.length_eq_zero_iff, length_hexDigits]
    decide
  have hlt : n.toNat < 16 ^ 8 := n.toNat_lt
  rw [hex8, String.toList_ofList, digits?, if_neg (by simpa using hne), digitsFrom?_hexDigits,
    Nat.zero_mul, Nat.zero_add, Nat.mod_eq_of_lt hlt]

end TypeLang.Text
