import Mathlib
import TypeLang.Wire.JsonValue

/-!
# What readers give

`Yields read good` is about bytes that no writer need have written: whenever the reader succeeds, it
has gone forward by some number of bytes, and `good` relates this number to the value. Like `Takes`,
the relation composes along `>>=`.
-/

namespace TypeLang.Wire

namespace Cursor

theorem skip_zero (c : Cursor) : c.skip 0 = c := rfl

theorem skip_skip (c : Cursor) (m n : Nat) : (c.skip m).skip n = c.skip (m + n) := by
  simp only [skip, List.drop_drop, Nat.add_assoc]

@[simp] theorem remaining_skip (c : Cursor) (n : Nat) :
    (c.skip n).remaining = c.remaining - n := by
  simp only [remaining, skip, List.length_drop]

end Cursor

theorem bind_eq_ok_iff {ε σ α β : Type} {x : EStateM ε σ α} {f : α → EStateM ε σ β} {s s'' : σ}
    {b : β} : (x >>= f) s = .ok b s'' ↔ ∃ a s', x s = .ok a s' ∧ f a s' = .ok b s'' := by
  show EStateM.bind x f s = _ ↔ _
  unfold EStateM.bind
  cases x s <;> simp

/-- A successful `read` goes forward by a number of bytes that `good` allows for its value. -/
def Yields {ε α : Type} (read : EStateM ε Cursor α) (good : α → Nat → Prop) : Prop :=
  ∀ c x c', read c = .ok x c' → ∃ n, n ≤ c.remaining ∧ c' = c.skip n ∧ good x n

namespace Yields

variable {ε α β : Type} {read : EStateM ε Cursor α} {next : α → EStateM ε Cursor β}
  {good other : α → Nat → Prop} {final : β → Nat → Prop}

theorem pure {x : α} (h : good x 0) : Yields (Pure.pure x : EStateM ε Cursor α) good := by
  intro c y c' hread
  cases hread
  exact ⟨0, Nat.zero_le _, rfl, h⟩

theorem throw (e : ε) : Yields (throw e : EStateM ε Cursor α) good := by
  intro c y c' hread
  cases hread

theorem mono (hread : Yields read good) (himp : ∀ x n, good x n → other x n) :
    Yields read other := by
  intro c x c' h
  obtain ⟨n, hn, hc, hgood⟩ := hread c x c' h
  exact ⟨n, hn, hc, himp x n hgood⟩

theorem bind (hread : Yields read good)
    (hnext : ∀ x m, good x m → Yields (next x) fun y n => final y (m + n)) :
    Yields (read >>= next) final := by
  intro c y c'' h
  obtain ⟨x, c', hx, hy⟩ := bind_eq_ok_iff.mp h
  obtain ⟨m, hm, rfl, hgood⟩ := hread c x c' hx
  obtain ⟨n, hn, rfl, hfinal⟩ := hnext x m hgood _ y c'' hy
  rw [Cursor.remaining_skip] at hn
  exact ⟨m + n, by omega, Cursor.skip_skip c m n, hfinal⟩

theorem bind_pure {f : α → β} (hread : Yields read good)
    (himp : ∀ x n, good x n → final (f x) n) :
    Yields (read >>= fun x => Pure.pure (f x)) final :=
  hread.bind fun x n hgood => Yields.pure (himp x n hgood)

theorem map {f : α → β} (hread : Yields read good) (himp : ∀ x n, good x n → final (f x) n) :
    Yields (f <$> read) final :=
  hread.bind_pure himp

theorem ite {p : Prop} [Decidable p] {first second : EStateM ε Cursor α}
    (hfirst : p → Yields first good) (hsecond : ¬p → Yields second good) :
    Yields (if p then first else second) good := by
  by_cases hp : p
  · rw [if_pos hp]
    exact hfirst hp
  · rw [if_neg hp]
    exact hsecond hp

end Yields

theorem ofLittleEndian_lt (bytes : List UInt8) : ofLittleEndian bytes < 256 ^ bytes.length := by
  induction bytes with
  | nil => simp [ofLittleEndian]
  | cons b bytes ih =>
      have hb := b.toNat_lt
      rw [ofLittleEndian, List.length_cons, Nat.pow_succ]
      omega

theorem payloadSize_le (n : Nat) : payloadSize n ≤ 4 + n + padding (4 + n) := by
  unfold payloadSize headerSize padding
  split <;> omega

namespace Read

/-! ## Numbers -/

theorem take_yields (n : Nat) :
    Yields (take n) fun bytes taken => bytes.length = n ∧ taken = n := by
  intro c bytes c' h
  rw [take_eq] at h
  split at h
  · rename_i hn
    cases h
    exact ⟨n, hn, rfl, List.length_take_of_le hn, rfl⟩
  · cases h

theorem byte_yields : Yields byte fun _ taken => taken = 1 := by
  intro c b c' h
  obtain ⟨position, _ | ⟨first, rest⟩⟩ := c
  · cases h
  · cases h
    exact ⟨1, by simp [Cursor.remaining], rfl, rfl⟩

theorem skip_yields (n : Nat) : Yields (skip n) fun _ taken => taken = n :=
  (take_yields n).bind_pure fun _ _ h => h.2

theorem number_yields (width : Nat) :
    Yields (number width) fun n taken => n < 256 ^ width ∧ taken = width := by
  apply (take_yields width).bind_pure
  rintro bytes taken ⟨rfl, rfl⟩
  exact ⟨ofLittleEndian_lt bytes, rfl⟩

theorem uint32_yields : Yields uint32 fun _ taken => taken = 4 :=
  (number_yields 4).bind_pure fun _ _ h => h.2

theorem int32_yields : Yields int32 fun _ taken => taken = 4 :=
  uint32_yields.bind_pure fun _ _ h => h

theorem uint64_yields : Yields uint64 fun _ taken => taken = 8 :=
  (number_yields 8).bind_pure fun _ _ h => h.2

theorem int64_yields : Yields int64 fun _ taken => taken = 8 :=
  uint64_yields.bind_pure fun _ _ h => h

theorem peekUInt32_yields : Yields peekUInt32 fun _ taken => taken = 0 := by
  intro c v c' h
  unfold peekUInt32 at h
  split at h
  · cases h
    exact ⟨0, Nat.zero_le _, rfl, rfl⟩
  · cases h

theorem bool_yields : Yields bool fun _ taken => taken = 4 := by
  apply uint32_yields.bind
  rintro id _ rfl
  refine .ite (fun _ => .pure rfl) fun _ => ?_
  exact .ite (fun _ => .pure rfl) fun _ => .throw _

theorem raw_yields (n : Nat) : Yields (raw n) fun _ taken => taken = n := by
  intro c v c' h
  unfold raw at h
  simp only at h
  split at h
  · rename_i hlength
    cases h
    rw [List.length_take] at hlength
    exact ⟨n, by unfold Cursor.remaining; omega, rfl, rfl⟩
  · cases h

/-! ## Payloads -/

private theorem body_yields (header length : Nat) :
    Yields (do
        let payload ← take length
        skip (padding (header + length))
        return payload)
      fun bytes taken => bytes.length = length ∧ taken = length + padding (header + length) := by
  apply (take_yields length).bind
  rintro bytes _ ⟨hlength, rfl⟩
  apply (skip_yields _).bind_pure
  rintro _ _ rfl
  exact ⟨hlength, rfl⟩

/-- A payload stands behind a header of one byte or of four, and its padding follows from both. -/
theorem payload_yields_padded : Yields payload fun bytes taken =>
    ∃ header, taken = header + bytes.length + padding (header + bytes.length) ∧
      (header = 4 ∧ bytes.length ≤ maxPayload ∨ header = 1 ∧ bytes.length < 254) := by
  apply byte_yields.bind
  rintro first _ rfl
  refine .ite (fun _ => .throw _) fun hfirst => ?_
  by_cases hlong : first = 0xfe
  · rw [if_pos hlong]
    apply (number_yields 3).bind
    rintro length _ ⟨hlength, rfl⟩
    rw [pure_bind]
    apply (body_yields 4 length).mono
    rintro bytes _ ⟨rfl, rfl⟩
    exact ⟨4, by omega, .inl ⟨rfl, by unfold maxPayload; omega⟩⟩
  · rw [if_neg hlong, pure_bind]
    apply (body_yields 1 first.toNat).mono
    rintro bytes _ ⟨hlength, rfl⟩
    have hshort : first.toNat < 254 := by
      have hmax := first.toNat_lt
      have hne : first.toNat ≠ 254 := fun h => hlong (UInt8.toNat_inj.mp h)
      have hne' : first.toNat ≠ 255 := fun h => hfirst (UInt8.toNat_inj.mp h)
      omega
    rw [← hlength] at hshort ⊢
    exact ⟨1, by omega, .inr ⟨rfl, hshort⟩⟩

theorem payload_yields : Yields payload fun bytes taken =>
    bytes.length ≤ maxPayload ∧ payloadSize bytes.length ≤ taken := by
  apply payload_yields_padded.mono
  rintro bytes _ ⟨header, rfl, ⟨rfl, hlength⟩ | ⟨rfl, hlength⟩⟩
  · exact ⟨hlength, payloadSize_le bytes.length⟩
  · unfold maxPayload payloadSize headerSize
    rw [if_pos hlength]
    omega

theorem string_yields : Yields string fun s taken =>
    s.utf8ByteSize ≤ maxPayload ∧ payloadSize s.utf8ByteSize ≤ taken := by
  apply payload_yields.bind
  intro bytes taken hbytes
  split
  · rename_i s hs
    refine .pure ?_
    rw [← Text.length_toUtf8, Text.toUtf8_of_ofUtf8? hs]
    exact hbytes
  · exact .throw _

/-! ## Vectors -/

theorem count_yields : Yields count fun n taken => n < 2 ^ 31 ∧ taken = 4 := by
  apply int32_yields.bind
  rintro n _ rfl
  refine .ite (fun hn => .pure ⟨?_, rfl⟩) fun _ => .throw _
  have hlt := n.toInt_lt
  omega

theorem id_yields (expected : UInt32) : Yields (id expected) fun _ taken => taken = 4 := by
  apply uint32_yields.bind
  rintro found _ rfl
  exact .ite (fun _ => .pure rfl) fun _ => .throw _

variable {ε α : Type} {read : EStateM ε Cursor α}

private theorem itemsFrom_yields {good : α → Nat → Prop} (hread : Yields read good) (n : Nat)
    (done : List α) : Yields (itemsFrom read n done) fun xs taken =>
      ∃ more sizes, xs = done.reverse ++ more ∧ more.length = n ∧ List.Forall₂ good more sizes ∧
        sizes.sum = taken := by
  induction n generalizing done with
  | zero => exact .pure ⟨[], [], by simp⟩
  | succ n ih =>
      rw [itemsFrom_succ]
      apply hread.bind
      intro item taken hgood
      apply (ih (item :: done)).mono
      rintro xs rest ⟨more, sizes, rfl, rfl, hmore, rfl⟩
      exact ⟨item :: more, taken :: sizes, by simp, rfl, .cons hgood hmore, List.sum_cons⟩

theorem items_yields {good : α → Nat → Prop} (hread : Yields read good) (n : Nat) :
    Yields (items read n) fun xs taken =>
      xs.length = n ∧ ∃ sizes, List.Forall₂ good xs sizes ∧ sizes.sum = taken := by
  apply (itemsFrom_yields hread n []).mono
  rintro xs taken ⟨more, sizes, rfl, hlength, hmore, hsum⟩
  exact ⟨hlength, sizes, hmore, hsum⟩

/-- Items take at least the sum of what each of them takes at least. -/
theorem items_yields_le {good : α → Prop} {size : α → Nat}
    (hread : Yields read fun x taken => good x ∧ size x ≤ taken) (n : Nat) :
    Yields (items read n) fun xs taken =>
      xs.length = n ∧ (∀ x ∈ xs, good x) ∧ (xs.map size).sum ≤ taken := by
  apply (items_yields hread n).mono
  rintro xs _ ⟨hlength, sizes, hxs, rfl⟩
  refine ⟨hlength, ?_⟩
  clear hlength
  induction hxs with
  | nil => simp
  | @cons x m xs sizes hx _ ih =>
      obtain ⟨hgood, hsum⟩ := ih
      refine ⟨List.forall_mem_cons.mpr ⟨hx.1, hgood⟩, ?_⟩
      rw [List.map_cons, List.sum_cons, List.sum_cons]
      exact Nat.add_le_add hx.2 hsum

end Read

end TypeLang.Wire
