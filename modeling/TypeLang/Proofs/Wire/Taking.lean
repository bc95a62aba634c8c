import Mathlib
import TypeLang.Wire.Cursor

/-!
# Reading back what was written

`Takes read bytes value` says that a reader undoes a writer, whatever stands behind the bytes. The
relation composes along `>>=`, so that the round trip of a compound value follows from those of its
parts.
-/

namespace TypeLang.Wire

def Takes {ε α : Type} (read : EStateM ε Cursor α) (bytes : List UInt8) (value : α) : Prop :=
  ∀ position rest,
    read ⟨position, bytes ++ rest⟩ = .ok value ⟨position + bytes.length, rest⟩

namespace Takes

variable {ε α β : Type} {read : EStateM ε Cursor α} {bytes more : List UInt8} {x : α} {y : β}

theorem pure (x : α) : Takes (Pure.pure x : EStateM ε Cursor α) [] x := by
  intro position rest
  rfl

theorem bind {next : α → EStateM ε Cursor β} (hread : Takes read bytes x)
    (hnext : Takes (next x) more y) : Takes (read >>= next) (bytes ++ more) y := by
  intro position rest
  show EStateM.bind read next _ = _
  rw [EStateM.bind, List.append_assoc, hread]
  simp only
  rw [hnext, List.length_append, Nat.add_assoc]

theorem bind_pure {next : α → EStateM ε Cursor β} (hread : Takes read bytes x)
    (hnext : next x = Pure.pure y) : Takes (read >>= next) bytes y := by
  have hpure : Takes (next x) [] y := by
    rw [hnext]
    exact Takes.pure y
  simpa using hread.bind hpure

theorem map (f : α → β) (hread : Takes read bytes x) : Takes (f <$> read) bytes (f x) := by
  intro position rest
  show EStateM.map f read _ = _
  rw [EStateM.map, hread]

theorem congr {other : EStateM ε Cursor α} (hread : Takes read bytes x) (heq : other = read) :
    Takes other bytes x := by
  rwa [heq]

end Takes

theorem ofLittleEndian_littleEndian (width n : Nat) :
    ofLittleEndian (littleEndian width n) = n % 256 ^ width := by
  induction width generalizing n with
  | zero => simp [littleEndian, ofLittleEndian, Nat.mod_one]
  | succ width ih =>
    show (UInt8.ofNat n).toNat + 256 * ofLittleEndian (littleEndian width (n / 256)) = _
    rw [UInt8.toNat_ofNat', ih, show 256 ^ (width + 1) = 256 * 256 ^ width from Nat.pow_succ',
      Nat.mod_mul]

namespace Read

/-! ## Numbers -/

theorem take_takes (bytes : List UInt8) : Takes (take bytes.length) bytes bytes := by
  intro position rest
  rw [take_eq, if_pos (by simp [Cursor.remaining])]
  simp [Cursor.skip]

theorem byte_takes (b : UInt8) : Takes byte [b] b := by
  intro position rest
  rfl

theorem skip_takes (bytes : List UInt8) : Takes (skip bytes.length) bytes () :=
  (take_takes bytes).bind_pure rfl

theorem number_takes {width n : Nat} (h : n < 256 ^ width) :
    Takes (number width) (littleEndian width n) n := by
  have htake := take_takes (littleEndian width n)
  rw [length_littleEndian] at htake
  apply htake.bind_pure
  rw [ofLittleEndian_littleEndian, Nat.mod_eq_of_lt h]

theorem uint32_takes (v : UInt32) : Takes uint32 (Wire.uint32 v) v := by
  refine (number_takes ?_).bind_pure ?_
  · exact v.toNat_lt
  · rw [UInt32.ofNat_toNat]

theorem int32_takes (v : Int32) : Takes int32 (Wire.int32 v) v :=
  (uint32_takes v.toUInt32).bind_pure rfl

theorem uint64_takes (v : UInt64) : Takes uint64 (Wire.uint64 v) v := by
  refine (number_takes ?_).bind_pure ?_
  · exact v.toNat_lt
  · rw [UInt64.ofNat_toNat]

theorem int64_takes (v : Int64) : Takes int64 (Wire.int64 v) v :=
  (uint64_takes v.toUInt64).bind_pure rfl

theorem bool_takes (v : Bool) : Takes bool (Wire.bool v) v := by
  apply (uint32_takes _).bind_pure
  cases v <;> rfl

theorem raw_takes {n : Nat} (v : Vector UInt8 n) : Takes (raw n) v.toList v := by
  intro position rest
  have hlength : v.toList.length = n := by simp
  have htake : (v.toList ++ rest).take n = v.toList := List.take_left' hlength
  have hdrop : (v.toList ++ rest).drop n = rest := List.drop_left' hlength
  simp only [raw, Cursor.skip, htake, hdrop, hlength, dite_true]
  rfl

/-! ## Payloads -/

private theorem toNat_ofNat_short {n : Nat} (h : n < 254) : (UInt8.ofNat n).toNat = n := by
  rw [UInt8.toNat_ofNat']
  exact Nat.mod_eq_of_lt (by omega)

private theorem ofNat_ne_of_short {n : Nat} (h : n < 254) (b : UInt8) (hb : 254 ≤ b.toNat) :
    UInt8.ofNat n ≠ b := by
  intro heq
  have htoNat := toNat_ofNat_short h
  rw [heq] at htoNat
  omega

private theorem body_takes (bytes : List UInt8) (header : Nat) :
    Takes (do
        let payload ← take bytes.length
        skip (padding (header + bytes.length))
        return payload)
      (bytes ++ List.replicate (padding (header + bytes.length)) 0) bytes := by
  apply (take_takes bytes).bind
  have hskip := skip_takes (List.replicate (padding (header + bytes.length)) (0 : UInt8))
  rw [List.length_replicate] at hskip
  exact hskip.bind_pure rfl

theorem payload_takes {bytes : List UInt8} (h : bytes.length ≤ maxPayload) :
    Takes payload (Wire.payload bytes) bytes := by
  unfold payload Wire.payload header
  by_cases hshort : bytes.length < 254
  · have hsize : headerSize bytes.length = 1 := if_pos hshort
    rw [if_pos hshort, hsize]
    apply (byte_takes _).bind
    rw [if_neg (ofNat_ne_of_short hshort _ (by decide)),
      if_neg (ofNat_ne_of_short hshort _ (by decide)), pure_bind, toNat_ofNat_short hshort]
    exact body_takes bytes 1
  · have hsize : headerSize bytes.length = 4 := if_neg hshort
    have hnumber : bytes.length < 256 ^ 3 := by
      unfold maxPayload at h
      omega
    rw [if_neg hshort, hsize]
    apply (byte_takes 0xfe).bind
    rw [if_neg (by decide), if_pos rfl]
    apply (number_takes hnumber).bind
    rw [pure_bind]
    exact body_takes bytes 4

theorem string_takes {s : String} (h : s.utf8ByteSize ≤ maxPayload) :
    Takes string (Wire.string s) s := by
  apply (payload_takes (by simpa using h)).bind_pure
  rw [Text.ofUtf8?_toUtf8]

/-! ## Vectors -/

theorem count_takes {n : Nat} (h : n < 2 ^ 31) : Takes count (Wire.count n) n := by
  have hword : (UInt32.ofNat n).toNat = n := by
    rw [UInt32.toNat_ofNat']
    exact Nat.mod_eq_of_lt (by omega)
  have hint : (UInt32.ofNat n).toInt32.toInt = n := by
    rw [UInt32.toInt32_ofNat']
    exact Int32.toInt_ofNat_of_lt h
  have hbytes : Wire.count n = Wire.int32 (UInt32.ofNat n).toInt32 := by
    show littleEndian 4 n = littleEndian 4 (UInt32.ofNat n).toNat
    rw [hword]
  rw [hbytes]
  apply (int32_takes _).bind_pure
  rw [hint, if_pos (Int.natCast_nonneg n), Int.toNat_natCast]

theorem id_takes (expected : UInt32) : Takes (id expected) (Wire.uint32 expected) () := by
  apply (uint32_takes expected).bind_pure
  rw [if_pos rfl]

variable {ε α : Type} {read : EStateM ε Cursor α}

theorem itemsFrom_takes_nil (done : List α) :
    Takes (itemsFrom read 0 done) [] done.reverse :=
  Takes.pure _

theorem itemsFrom_takes_cons {n : Nat} {done items : List α} {bytes more : List UInt8} {x : α}
    (hread : Takes read bytes x) (hrest : Takes (itemsFrom read n (x :: done)) more items) :
    Takes (itemsFrom read (n + 1) done) (bytes ++ more) items := by
  rw [itemsFrom_succ]
  exact hread.bind hrest

theorem items_takes_of_forall₂ {encodings : List (List UInt8)} {values : List α}
    (h : List.Forall₂ (Takes read) encodings values) :
    Takes (items read values.length) encodings.flatten values := by
  have hfrom : ∀ done, Takes (itemsFrom read values.length done) encodings.flatten
      (done.reverse ++ values) := by
    induction h with
    | nil =>
        intro done
        simpa using itemsFrom_takes_nil done
    | @cons bytes item _ _ hitem _ ih =>
        intro done
        have hrest := ih (item :: done)
        rw [List.reverse_cons, List.append_assoc] at hrest
        exact itemsFrom_takes_cons hitem hrest
  exact hfrom []

theorem items_takes_map {β : Type} {encode : β → List UInt8} {value : β → α} {xs : List β}
    (h : ∀ x ∈ xs, Takes read (encode x) (value x)) :
    Takes (items read xs.length) (xs.flatMap encode) (xs.map value) := by
  have heach : List.Forall₂ (Takes read) (xs.map encode) (xs.map value) := by
    rw [List.forall₂_map_left_iff, List.forall₂_map_right_iff, List.forall₂_same]
    exact h
  have hitems := items_takes_of_forall₂ heach
  rwa [List.length_map, ← List.flatMap_def] at hitems

end Read

end TypeLang.Wire
