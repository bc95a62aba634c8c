import TypeLang.Proofs.Text.Digits

/-!
# Spelled numbers

The texts that spell a number: its hexadecimal digits in letters of either case, or its decimal
digits behind a sign, with any number of zeros in front of the digits. Both are said without the
readers of `Text.Number`, which give the number again.
-/

namespace TypeLang.Text

/-! ## Spellings -/

/-- The characters are the hexadecimal digits of `n`, in any letter case and behind any number of
zeros. -/
def IsHex (n : Nat) (cs : List Char) : Prop :=
  ∃ zeros, cs.map Char.toLower = List.replicate zeros '0' ++ Nat.toDigits 16 n

/-- The characters are the decimal digits of `z`, behind any number of zeros and a sign, which a
number that is not negative may lack. -/
def IsDecimal (z : Int) (cs : List Char) : Prop :=
  ∃ sign zeros, cs = sign ++ (List.replicate zeros '0' ++ Nat.toDigits 10 z.natAbs) ∧
    (sign = ['-'] ∧ z ≤ 0 ∨ (sign = [] ∨ sign = ['+']) ∧ 0 ≤ z)

theorem isDecimal_toString (z : Int) : IsDecimal z (toString z).toList := by
  rw [Int.toString_eq_repr, Int.repr_eq_if]
  by_cases hz : 0 ≤ z
  · have habs : z.toNat = z.natAbs := by omega
    refine ⟨[], 0, ?_, .inr ⟨.inl rfl, hz⟩⟩
    rw [if_pos hz, habs, Nat.repr, String.toList_ofList]
    rfl
  · have habs : (-z).toNat = z.natAbs := by omega
    refine ⟨['-'], 0, ?_, .inl ⟨rfl, by omega⟩⟩
    rw [if_neg hz, habs, String.toList_append, Nat.repr, String.toList_ofList, String.toList_ofList]
    rfl

/-! ## Digits -/

theorem digit?_digitChar : ∀ radix ≤ 16, ∀ d < radix, digit? radix (Nat.digitChar d) = some d := by
  decide

theorem toNat_toLower (c : Char) :
    c.toLower.toNat = if 0x41 ≤ c.toNat ∧ c.toNat ≤ 0x5a then c.toNat + 0x20 else c.toNat := by
  unfold Char.toLower
  by_cases h : 0x41 ≤ c.toNat ∧ c.toNat ≤ 0x5a
  · have hupper : c.val ≥ 'A'.val ∧ c.val ≤ 'Z'.val := h
    rw [dif_pos hupper, if_pos h]
    show (c.val + 0x20).toNat = _
    rw [UInt32.toNat_add]
    show (c.toNat + 0x20) % 2 ^ 32 = _
    omega
  · have hupper : ¬(c.val ≥ 'A'.val ∧ c.val ≤ 'Z'.val) := h
    rw [dif_neg hupper, if_neg h]

theorem digit?_toLower (radix : Nat) (c : Char) : digit? radix c.toLower = digit? radix c := by
  rw [digit?_eq, digit?_eq, toNat_toLower]
  by_cases h : 0x41 ≤ c.toNat ∧ c.toNat ≤ 0x5a
  · rw [if_pos h, if_neg (by omega), if_pos (by omega), if_neg (by omega), if_neg (by omega),
      if_pos h]
    congr 2
  · rw [if_neg h]

theorem isSome_digit? (c : Char) : (digit? 16 c).isSome = c.isHexDigit := by
  have hcode : c.isHexDigit = true ↔ (0x30 ≤ c.toNat ∧ c.toNat ≤ 0x39 ∨
      0x61 ≤ c.toNat ∧ c.toNat ≤ 0x66) ∨ 0x41 ≤ c.toNat ∧ c.toNat ≤ 0x46 := by
    simp only [Char.isHexDigit, Char.isDigit, Bool.or_eq_true, Bool.and_eq_true, decide_eq_true_eq,
      ge_iff_le, UInt32.le_iff_toNat_le]
    rfl
  rw [Bool.eq_iff_iff, hcode, digit?_eq]
  split_ifs <;> simp [Option.filter_some] <;> omega

theorem not_isDigit_of_isAlpha {c : Char} (h : c.isAlpha = true) : c.isDigit = false := by
  have hletter : 0x41 ≤ c.toNat ∧ c.toNat ≤ 0x5a ∨ 0x61 ≤ c.toNat ∧ c.toNat ≤ 0x7a := by
    simpa [Char.isAlpha, Char.isUpper, Char.isLower, UInt32.le_iff_toNat_le] using h
  have hcode : ¬(0x30 ≤ c.toNat ∧ c.toNat ≤ 0x39) := by
    omega
  simpa [Char.isDigit, UInt32.le_iff_toNat_le] using hcode

theorem lt_of_digit? {radix d : Nat} {c : Char} (h : digit? radix c = some d) : d < radix :=
  of_decide_eq_true (Option.filter_eq_some_iff.mp h).2

theorem toNat_digitChar :
    ∀ d < 16, (Nat.digitChar d).toNat = if d < 10 then 0x30 + d else 0x57 + d := by
  decide

theorem toLower_of_digit? {c : Char} {d : Nat} (h : digit? 16 c = some d) :
    c.toLower = Nat.digitChar d := by
  rw [← Char.toNat_inj, toNat_toLower, toNat_digitChar d (lt_of_digit? h)]
  rw [digit?_eq] at h
  obtain ⟨hvalue, -⟩ := Option.filter_eq_some_iff.mp h
  split_ifs at hvalue ⊢ <;> simp only [Option.some.injEq] at hvalue <;> omega

theorem digits?_map_toLower (radix : Nat) (cs : List Char) :
    digits? radix (cs.map Char.toLower) = digits? radix cs := by
  have hfrom : ∀ acc, digitsFrom? radix acc (cs.map Char.toLower) = digitsFrom? radix acc cs := by
    induction cs with
    | nil => exact fun _ => rfl
    | cons c cs ih =>
        intro acc
        rw [List.map_cons, digitsFrom?, digitsFrom?, digit?_toLower]
        simp only [ih]
  rw [digits?, digits?, hfrom, List.isEmpty_map]

theorem digitsFrom?_zeros {radix : Nat} (h : 0 < radix) (zeros : Nat) (cs : List Char) :
    digitsFrom? radix 0 (List.replicate zeros '0' ++ cs) = digitsFrom? radix 0 cs := by
  have hzero : digit? radix '0' = some 0 := by
    simp [digit?, h]
  induction zeros with
  | zero => rfl
  | succ zeros ih =>
      rw [List.replicate_succ, List.cons_append, digitsFrom?, hzero, Option.bind_some, Nat.zero_mul,
        ih]

theorem digitsFrom?_toDigits {radix : Nat} (h1 : 1 < radix) (h16 : radix ≤ 16) (n : Nat) :
    digitsFrom? radix 0 (Nat.toDigits radix n) = some n := by
  -- All digits but the last spell the quotient by the radix.
  induction n using Nat.strong_induction_on with
  | h n ih =>
      rw [Nat.toDigits_eq_if h1]
      split
      · rename_i hn
        rw [digitsFrom?, digit?_digitChar radix h16 n hn, Option.bind_some, digitsFrom?,
          Nat.zero_mul, Nat.zero_add]
      · rename_i hn
        have hlast := digit?_digitChar radix h16 (n % radix) (Nat.mod_lt n (by omega))
        rw [digitsFrom?_append, ih (n / radix) (Nat.div_lt_self (by omega) h1), Option.bind_some,
          digitsFrom?, hlast, Option.bind_some, digitsFrom?, Nat.div_add_mod']

theorem digits?_spelled {radix : Nat} (h1 : 1 < radix) (h16 : radix ≤ 16) (zeros n : Nat) :
    digits? radix (List.replicate zeros '0' ++ Nat.toDigits radix n) = some n := by
  have hne : (List.replicate zeros '0' ++ Nat.toDigits radix n).isEmpty = false := by
    rw [List.isEmpty_eq_false_iff]
    exact List.append_ne_nil_of_right_ne_nil _ Nat.toDigits_ne_nil
  rw [digits?, hne, if_neg Bool.false_ne_true, digitsFrom?_zeros (by omega),
    digitsFrom?_toDigits h1 h16]

/-! ## Reading what is spelled -/

theorem digits?_of_isHex {n : Nat} {cs : List Char} (h : IsHex n cs) : digits? 16 cs = some n := by
  obtain ⟨zeros, hcs⟩ := h
  rw [← digits?_map_toLower, hcs, digits?_spelled (by decide) (by decide)]

theorem isHexDigit_of_isHex {n : Nat} {cs : List Char} (h : IsHex n cs) :
    ∀ c ∈ cs, c.isHexDigit = true := by
  intro c hc
  obtain ⟨d, hd⟩ := exists_digit?_of_digits? (digits?_of_isHex h) c hc
  rw [← isSome_digit?, hd]
  rfl

theorem isHex_concat {n d : Nat} {cs : List Char} {c : Char} (h : IsHex n cs)
    (hc : digit? 16 c = some d) : IsHex (16 * n + d) (cs ++ [c]) := by
  have hd := lt_of_digit? hc
  have hdigit : Nat.toDigits 16 d = [Nat.digitChar d] := Nat.toDigits_of_lt_base hd
  obtain ⟨zeros, hcs⟩ := h
  rcases Nat.eq_zero_or_pos n with rfl | hn
  · -- All characters in front are zeros.
    refine ⟨zeros + 1, ?_⟩
    rw [List.map_append, hcs, List.map_singleton, toLower_of_digit? hc, Nat.mul_zero, Nat.zero_add,
      hdigit, List.replicate_succ']
    rfl
  · refine ⟨zeros, ?_⟩
    rw [List.map_append, hcs, List.map_singleton, toLower_of_digit? hc, List.append_assoc, ← hdigit,
      Nat.toDigits_append_toDigits (by decide) hn hd]

theorem exists_isHex {cs : List Char} (hne : cs ≠ []) (h : ∀ c ∈ cs, c.isHexDigit = true) :
    ∃ n < 16 ^ cs.length, IsHex n cs := by
  induction cs using List.reverseRecOn with
  | nil => exact absurd rfl hne
  | append_singleton cs c ih =>
      have hc := h c (List.mem_append_right cs List.mem_cons_self)
      rw [← isSome_digit?] at hc
      obtain ⟨d, hd⟩ := Option.isSome_iff_exists.mp hc
      have hlt := lt_of_digit? hd
      rw [List.length_append, List.length_singleton, Nat.pow_succ]
      by_cases hcs : cs = []
      · subst hcs
        refine ⟨d, by simpa using hlt, 0, ?_⟩
        rw [List.nil_append, List.map_singleton, toLower_of_digit? hd, Nat.toDigits_of_lt_base hlt]
        rfl
      · obtain ⟨n, hn, hhex⟩ := ih hcs fun c' hc' => h c' (List.mem_append_left [c] hc')
        exact ⟨16 * n + d, by omega, isHex_concat hhex hd⟩

theorem isDigit_of_isDecimal {z : Int} {cs : List Char} (h : IsDecimal z cs) :
    ∀ c ∈ cs, c = '-' ∨ c = '+' ∨ c.isDigit = true := by
  obtain ⟨sign, zeros, rfl, hsign⟩ := h
  intro c hc
  rcases List.mem_append.mp hc with hc | hc
  · rcases hsign with ⟨rfl, -⟩ | ⟨rfl | rfl, -⟩
    · exact .inl (List.mem_singleton.mp hc)
    · cases hc
    · exact .inr (.inl (List.mem_singleton.mp hc))
  · refine .inr (.inr ?_)
    rcases List.mem_append.mp hc with hc | hc
    · rw [List.eq_of_mem_replicate hc]
      rfl
    · exact Nat.isDigit_of_mem_toDigits (by decide) (by decide) hc

theorem int64?_of_isDecimal {z : Int} {cs : List Char} (h : IsDecimal z cs) :
    int64? cs = if -2 ^ 63 ≤ z ∧ z < 2 ^ 63 then some z else none := by
  obtain ⟨sign, zeros, rfl, hsign⟩ := h
  have hdigits : digits? 10 (List.replicate zeros '0' ++ Nat.toDigits 10 z.natAbs) =
      some z.natAbs := digits?_spelled (by decide) (by decide) zeros z.natAbs
  have hbelow (hz : 0 ≤ z) : ((some z.natAbs).filter (· < 0x8000000000000000)).map Int.ofNat =
      if -2 ^ 63 ≤ z ∧ z < 2 ^ 63 then some z else none := by
    by_cases hlt : z.natAbs < 0x8000000000000000
    · have habs : Int.ofNat z.natAbs = z := Int.natAbs_of_nonneg hz
      rw [Option.filter_some, if_pos (decide_eq_true hlt), if_pos (by omega), Option.map_some, habs]
    · rw [Option.filter_some, if_neg (by simpa using hlt), if_neg (by omega), Option.map_none]
  rcases hsign with ⟨rfl, hz⟩ | ⟨rfl | rfl, hz⟩
  · rw [List.singleton_append, int64?, hdigits, Option.filter_some]
    by_cases hle : z.natAbs ≤ 0x8000000000000000
    · have habs : -(z.natAbs : Int) = z := by omega
      rw [if_pos (decide_eq_true hle), if_pos (by omega)]
      exact congrArg some habs
    · rw [if_neg (by simpa using hle), if_neg (by omega)]
      rfl
  · rw [List.nil_append, int64?]
    · rw [natBelow?_eq_filter hdigits, hbelow hz]
    · intro rest hrest
      have hminus : '-' ∈ List.replicate zeros '0' ++ Nat.toDigits 10 z.natAbs := by
        rw [hrest]
        exact List.mem_cons_self
      exact absurd (isIdentifierChar_of_digits? hdigits '-' hminus) (by decide)
  · rw [List.singleton_append, int64?]
    · rw [natBelow?, hdigits, hbelow hz]
    · rintro rest ⟨⟩

end TypeLang.Text
