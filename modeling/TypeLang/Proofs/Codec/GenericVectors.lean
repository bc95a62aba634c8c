import TypeLang.Proofs.Codec.LeadingIds
import TypeLang.Proofs.Codec.RoundTrip
import TypeLang.Proofs.Wire.WireTypes

/-!
# Vectors whose item type is not declared

The bytes of such a vector do not tell the type of its items. The reader takes them for 64-bit
numbers if there are eight bytes for each item up to the end, for 32-bit numbers if there are four,
and otherwise lets every item tell its own type. `decode_vector_exact` says what becomes of a vector
of values that tell their own types, which depends on nothing but the number of their bytes, and
that vectors of numbers are read back whatever they hold.
-/

namespace TypeLang

open Wire (Takes)
open Decoding (wire)

/-! ## Numbers in a row -/

namespace Wire

theorem littleEndian_ofLittleEndian (bytes : List UInt8) :
    littleEndian bytes.length (ofLittleEndian bytes) = bytes := by
  induction bytes with
  | nil => rfl
  | cons b bytes ih =>
      have hb : b.toNat < 256 := b.toNat_lt
      have hlow : UInt8.ofNat (ofLittleEndian (b :: bytes)) = b := by
        rw [ofLittleEndian, ← UInt8.toNat_inj, UInt8.toNat_ofNat']
        omega
      have hhigh : ofLittleEndian (b :: bytes) / 256 = ofLittleEndian bytes := by
        rw [ofLittleEndian]
        omega
      rw [List.length_cons, littleEndian, hlow, hhigh, ih]

theorem exists_int32 {bytes : List UInt8} (h : bytes.length = 4) : ∃ n, int32 n = bytes := by
  have hbound : ofLittleEndian bytes < 2 ^ 32 := by
    have hlt := ofLittleEndian_lt bytes
    rwa [h] at hlt
  refine ⟨(UInt32.ofNat (ofLittleEndian bytes)).toInt32, ?_⟩
  rw [int32, UInt32.toUInt32_toInt32, uint32, UInt32.toNat_ofNat', Nat.mod_eq_of_lt hbound, ← h]
  exact littleEndian_ofLittleEndian bytes

theorem exists_int64 {bytes : List UInt8} (h : bytes.length = 8) : ∃ n, int64 n = bytes := by
  have hbound : ofLittleEndian bytes < 2 ^ 64 := by
    have hlt := ofLittleEndian_lt bytes
    rwa [h] at hlt
  refine ⟨(UInt64.ofNat (ofLittleEndian bytes)).toInt64, ?_⟩
  rw [int64, UInt64.toUInt64_toInt64, uint64, UInt64.toNat_ofNat', Nat.mod_eq_of_lt hbound, ← h]
  exact littleEndian_ofLittleEndian bytes

/-- Bytes that fill up `n` items of one width are those of `n` items. -/
theorem exists_items {α : Type} {encode : α → List UInt8} {width : Nat}
    (h : ∀ bytes : List UInt8, bytes.length = width → ∃ x, encode x = bytes) {n : Nat}
    {payload : List UInt8} (hlength : payload.length = n * width) :
    ∃ xs : List α, xs.length = n ∧ xs.flatMap encode = payload := by
  induction n generalizing payload with
  | zero =>
      have hnil : payload = [] := List.eq_nil_of_length_eq_zero (by omega)
      exact ⟨[], rfl, hnil.symm⟩
  | succ n ih =>
      rw [Nat.succ_mul] at hlength
      obtain ⟨x, hx⟩ := h (payload.take width) (by rw [List.length_take]; omega)
      have hrest : (payload.drop width).length = n * width := by
        rw [List.length_drop]
        omega
      obtain ⟨xs, hcount, hxs⟩ := ih hrest
      refine ⟨x :: xs, by rw [List.length_cons, hcount], ?_⟩
      rw [List.flatMap_cons, hx, hxs, List.take_append_drop]

theorem length_flatMap_of_width {α : Type} {encode : α → List UInt8} {width : Nat}
    (h : ∀ x, (encode x).length = width) (xs : List α) :
    (xs.flatMap encode).length = xs.length * width := by
  rw [List.length_flatMap, List.map_congr_left fun x _ => h x, List.map_const', List.sum_replicate,
    smul_eq_mul]

theorem length_int32 (v : Int32) : (int32 v).length = 4 :=
  length_uint32 v.toUInt32

theorem length_int64 (v : Int64) : (int64 v).length = 8 :=
  length_littleEndian 8 v.toUInt64.toNat

end Wire

namespace PlanSet

variable {p : PlanSet}

/-! ## Writing -/

theorem Canonical.isSelfDescribing {site : Site} {v : Value} (h : p.Canonical (.generic site) v) :
    v.isSelfDescribing := by
  cases h <;> rfl

theorem writeGenericItems_cons {site : Site} {item : Value} (h : item.isSelfDescribing)
    (rest : List Value) : p.writeGenericItems site (item :: rest) =
      p.writeGeneric site item ++ p.writeGenericItems site rest := by
  rw [writeGenericItems]
  · rintro v rfl
    cases h
  · rintro v rfl
    cases h

theorem writeGenericItems_eq {site : Site} {items : List Value} {encodings : List (List UInt8)}
    (hself : ∀ item ∈ items, item.isSelfDescribing)
    (h : List.Forall₂ (fun item bytes => p.writeGeneric site item = .ofBytes bytes)
      items encodings) :
    p.writeGenericItems site items = .ofBytes encodings.flatten := by
  induction h with
  | nil =>
      rw [writeGenericItems]
      rfl
  | cons hitem _ ih =>
      rw [List.forall_mem_cons] at hself
      rw [writeGenericItems_cons hself.1, hitem, ih hself.2, Output.ofBytes_append_ofBytes,
        List.flatten_cons]

theorem writeGenericItems_longs (site : Site) (longs : List Int64) :
    p.writeGenericItems site (longs.map .long) = .ofBytes (longs.flatMap Wire.int64) := by
  induction longs with
  | nil =>
      rw [List.map_nil, writeGenericItems]
      rfl
  | cons n longs ih =>
      rw [List.map_cons, writeGenericItems, ih, Output.ofBytes_append_ofBytes, List.flatMap_cons]

theorem writeGenericItems_ints (site : Site) (ints : List Int32) :
    p.writeGenericItems site (ints.map .int) = .ofBytes (ints.flatMap Wire.int32) := by
  induction ints with
  | nil =>
      rw [List.map_nil, writeGenericItems]
      rfl
  | cons n ints ih =>
      rw [List.map_cons, writeGenericItems, ih, Output.ofBytes_append_ofBytes, List.flatMap_cons]

theorem encode_vector {items : List Value} {payload : List UInt8}
    (h : p.writeGenericItems .top items = .ofBytes payload) :
    p.encode (.vector items) = .ok (Wire.vectorHeader items.length ++ payload) := by
  apply Output.toExcept_eq_ok.mpr
  rw [write, writeGeneric, h, Output.ofBytes_append_ofBytes]

/-! ## Reading -/

def readGenericItems (p : PlanSet) (depth n remaining : Nat) : Decoding Value :=
  if n * 8 = remaining then
    return .vector (← Wire.Read.items (Value.long <$> wire Wire.Read.int64) n)
  else if n * 4 = remaining then
    return .vector (← Wire.Read.items (Value.int <$> wire Wire.Read.int32) n)
  else return .vector (← Wire.Read.items (readGeneric p depth) n)

/-- Behind the header of a vector, its items are read with the bytes that are left. -/
theorem readGeneric_vectorHeader {n : Nat} (hn : n < 2 ^ 31) (depth position : Nat)
    (payload : List UInt8) :
    p.readGeneric (depth + 1) ⟨position, Wire.vectorHeader n ++ payload⟩ =
      p.readGenericItems depth n payload.length ⟨position + 8, payload⟩ := by
  have hskip := Decoding.wire_takes (Wire.Read.skip_takes (Wire.uint32 Wire.vectorId)) position
    (Wire.count n ++ payload)
  have hcount := Decoding.wire_takes (Wire.Read.count_takes hn) (position + 4) payload
  rw [Wire.length_uint32] at hskip
  rw [Wire.length_count] at hcount
  rw [Wire.vectorHeader, List.append_assoc, readGeneric, peek_bind, if_neg (by decide),
    if_pos rfl, Wire.bind_of_eq_ok hskip, Wire.bind_of_eq_ok hcount]
  rfl

section

variable {schemas : List Schema} {capabilities : Capabilities}
  (hp : compile schemas capabilities = .ok p) {n : Nat} (hn : n < 2 ^ 31) {payload : List UInt8}

include hp hn

theorem decode_vectorHeader {depth : Nat} {w : Value}
    (h : Takes (p.readGenericItems depth n payload.length) payload w) :
    p.decode (Wire.vectorHeader n ++ payload) = .ok w := by
  have hitems := h 8 []
  rw [List.append_nil] at hitems
  have hread := (readGeneric_vectorHeader hn depth 0 payload).trans hitems
  rw [decode, Decoding.run, Wire.Cursor.ofBytes, decodeFrom_of_read hp _ hread]

theorem decode_longs {longs : List Int64} (hcount : longs.length = n)
    (hbytes : longs.flatMap Wire.int64 = payload) :
    p.decode (Wire.vectorHeader n ++ payload) = .ok (.vector (longs.map .long)) := by
  have hlength : n * 8 = payload.length := by
    rw [← hbytes, ← hcount, Wire.length_flatMap_of_width Wire.length_int64]
  have hitems := Wire.Read.items_takes_map fun v (_ : v ∈ longs) =>
    (Decoding.wire_takes (Wire.Read.int64_takes v)).map Value.long
  rw [hcount, hbytes] at hitems
  have htakes : Takes (p.readGenericItems 0 n payload.length) payload
      (.vector (longs.map .long)) := by
    rw [readGenericItems, if_pos hlength]
    exact hitems.bind_pure rfl
  exact decode_vectorHeader hp hn htakes

theorem decode_ints {ints : List Int32} (hcount : ints.length = n)
    (hbytes : ints.flatMap Wire.int32 = payload) :
    p.decode (Wire.vectorHeader n ++ payload) = .ok (.vector (ints.map .int)) := by
  have hlength : n * 4 = payload.length := by
    rw [← hbytes, ← hcount, Wire.length_flatMap_of_width Wire.length_int32]
  have hitems := Wire.Read.items_takes_map fun v (_ : v ∈ ints) =>
    (Decoding.wire_takes (Wire.Read.int32_takes v)).map Value.int
  rw [hcount, hbytes] at hitems
  by_cases hzero : n = 0
  · -- Without items, the bytes are taken for those of no 64-bit numbers.
    have hnil : ints = [] := List.eq_nil_of_length_eq_zero (hcount.trans hzero)
    have hnone : ([] : List Int64).length = n := hzero.symm
    rw [hnil] at hbytes ⊢
    exact decode_longs hp hn hnone hbytes
  · have htakes : Takes (p.readGenericItems 0 n payload.length) payload
        (.vector (ints.map .int)) := by
      rw [readGenericItems, if_neg (by omega), if_pos hlength]
      exact hitems.bind_pure rfl
    exact decode_vectorHeader hp hn htakes

theorem decode_items {encodings : List (List UInt8)} {values : List Value} {depth : Nat}
    (hcount : values.length = n) (hbytes : encodings.flatten = payload)
    (heach : List.Forall₂ (Takes (p.readGeneric depth)) encodings values)
    (hints : payload.length ≠ 4 * n) (hlongs : payload.length ≠ 8 * n) :
    p.decode (Wire.vectorHeader n ++ payload) = .ok (.vector values) := by
  have hitems := Wire.Read.items_takes_of_forall₂ heach
  rw [hcount, hbytes] at hitems
  have htakes : Takes (p.readGenericItems depth n payload.length) payload (.vector values) := by
    rw [readGenericItems, if_neg (by omega), if_neg (by omega)]
    exact hitems.bind_pure rfl
  exact decode_vectorHeader hp hn htakes

end

/-! ## What becomes of a vector -/

/-- What is decoded from a vector whose items tell their own types and have the bytes `payload`. -/
structure Guess (items : List Value) (payload : List UInt8)
    (decoded : Except CodecError Value) : Prop where
  same : payload.length ≠ 4 * items.length → payload.length ≠ 8 * items.length →
    ∃ others, List.Forall₂ Value.Same items others ∧ decoded = .ok (.vector others)
  longs : payload.length = 8 * items.length → ∃ longs : List Int64,
    longs.length = items.length ∧ longs.flatMap Wire.int64 = payload ∧
      decoded = .ok (.vector (longs.map .long))
  ints : payload.length = 4 * items.length → ∃ ints : List Int32,
    ints.length = items.length ∧ ints.flatMap Wire.int32 = payload ∧
      decoded = .ok (.vector (ints.map .int))

def OneKindOfNumbers (items : List Value) : Prop :=
  (∀ item ∈ items, ∃ n, item = .long n) ∨ ∀ item ∈ items, ∃ n, item = .int n

theorem exists_map_of_forall {α : Type} {value : α → Value} {items : List Value}
    (h : ∀ item ∈ items, ∃ x, item = value x) : ∃ xs : List α, items = xs.map value := by
  induction items with
  | nil => exact ⟨[], rfl⟩
  | cons item items ih =>
      rw [List.forall_mem_cons] at h
      obtain ⟨x, rfl⟩ := h.1
      obtain ⟨xs, rfl⟩ := ih h.2
      exact ⟨x :: xs, rfl⟩

variable {schemas : List Schema} {capabilities : Capabilities}

theorem decode_numbers (hp : compile schemas capabilities = .ok p) {items : List Value}
    (hlength : items.length < 2 ^ 31) (h : OneKindOfNumbers items) :
    ∃ bytes, p.encode (.vector items) = .ok bytes ∧ p.decode bytes = .ok (.vector items) := by
  rcases h with h | h
  · obtain ⟨longs, rfl⟩ := exists_map_of_forall h
    refine ⟨_, encode_vector (writeGenericItems_longs .top longs), ?_⟩
    exact decode_longs hp hlength (List.length_map _).symm rfl
  · obtain ⟨ints, rfl⟩ := exists_map_of_forall h
    refine ⟨_, encode_vector (writeGenericItems_ints .top ints), ?_⟩
    exact decode_ints hp hlength (List.length_map _).symm rfl

/-- A vector of values that tell their own types is written, and the number of the bytes of its
items decides what is decoded: the same values, 64-bit numbers or 32-bit numbers, which have the
bytes of the items. A vector of numbers of one kind is decoded as it was. -/
theorem decode_vector_exact (hp : compile schemas capabilities = .ok p)
    (hnames : ∀ s ∈ schemas, ∀ decl ∈ s.declarations, (decl.params.map (·.name)).Nodup) :
    (∀ items : List Value, items.length < 2 ^ 31 →
      (∀ item ∈ items, p.Canonical (.generic .top) item) →
      ∃ encodings bytes,
        List.Forall₂ (fun item encoding => p.encode item = .ok encoding) items encodings ∧
        p.encode (.vector items) = .ok bytes ∧
        Guess items encodings.flatten (p.decode bytes)) ∧
      ∀ items : List Value, items.length < 2 ^ 31 → OneKindOfNumbers items →
        ∃ bytes, p.encode (.vector items) = .ok bytes ∧ p.decode bytes = .ok (.vector items) := by
  refine ⟨fun items hlength hcanonical => ?_, fun items => decode_numbers hp⟩
  have hround : ∀ item ∈ items, p.RoundTrips (.generic .top) item := fun item hitem =>
    roundTrips_of_canonical hp (distinct_of_params hp hnames) (hcanonical item hitem)
  obtain ⟨encodings, others, depth, hwrites, hsame, htakes⟩ := exists_encodings hround
  have hself : ∀ item ∈ items, item.isSelfDescribing := fun item hitem =>
    (hcanonical item hitem).isSelfDescribing
  refine ⟨encodings, _, hwrites.imp fun _ _ => Output.toExcept_eq_ok.mpr,
    encode_vector (writeGenericItems_eq hself hwrites), ?_⟩
  constructor
  case same =>
      intro hints hlongs
      have hdepth := htakes depth (Nat.le_refl depth)
      exact ⟨others, hsame, decode_items hp hlength hsame.length_eq.symm rfl hdepth hints hlongs⟩
  case longs =>
      intro htotal
      rw [Nat.mul_comm] at htotal
      obtain ⟨longs, hcount, hbytes⟩ := Wire.exists_items (fun _ => Wire.exists_int64) htotal
      exact ⟨longs, hcount, hbytes, decode_longs hp hlength hcount hbytes⟩
  case ints =>
      intro htotal
      rw [Nat.mul_comm] at htotal
      obtain ⟨ints, hcount, hbytes⟩ := Wire.exists_items (fun _ => Wire.exists_int32) htotal
      exact ⟨ints, hcount, hbytes, decode_ints hp hlength hcount hbytes⟩

private theorem encode_place (x y : Int32) :
    people.encode (.object 1 [("x", .int x), ("y", .int y)]) =
      .ok (Wire.uint32 1 ++ (Wire.int32 x ++ Wire.int32 y)) := by
  have hplace : people.dispatched 1 = .ok place := by
    rfl
  have hint (site : Site) (n : Int32) : people.writeTyped site (.primitive .int) (.int n) =
      .ofBytes (Wire.int32 n) := by
    rw [writeTyped_primitive (by decide)]
    rfl
  rw [encode, write, writeGeneric, hplace]
  show (Output.ofBytes (Wire.uint32 1) ++ people.writeFields _ _ [_, _]).toExcept = _
  rw [writeFields_cons, writeFields_cons, writeFields_nil, writeField_value (.inl ⟨4, rfl⟩),
    writeField_value (.inl ⟨4, rfl⟩)]
  exact congrArg₂ (fun first second => (.ofBytes (Wire.uint32 1) ++
    (first ++ (second ++ .empty)) : Output).toExcept) (hint _ x) (hint _ y)

private theorem encode_bool (b : Bool) : people.encode (.bool b) = .ok (Wire.bool b) := by
  rw [encode, write, writeGeneric]
  rfl

private theorem encodings_eq {items : List Value} {encodings known : List (List UInt8)}
    (h : List.Forall₂ (fun v encoding => p.encode v = .ok encoding) items encodings)
    (hknown : List.Forall₂ (fun v encoding => p.encode v = .ok encoding) items known) :
    encodings = known := by
  refine List.right_unique_forall₂' ?_ h hknown
  intro v first second hfirst hsecond
  exact Except.ok.inj (hfirst.symm.trans hsecond)

/-- Two places of twelve bytes each are decoded as they were. Two truth values of four bytes each
are decoded as two 32-bit numbers with these bytes. Numbers are decoded as they were. -/
theorem decode_vector_exact_people :
    (let places : List Value :=
        [.object 1 [("x", .int 3), ("y", .int 4)], .object 1 [("x", .int 5), ("y", .int 6)]]
      ∃ bytes others, people.encode (.vector places) = .ok bytes ∧
        List.Forall₂ Value.Same places others ∧ people.decode bytes = .ok (.vector others)) ∧
      (∃ bytes, ∃ ints : List Int32,
        people.encode (.vector [.bool true, .bool false]) = .ok bytes ∧
        ints.flatMap Wire.int32 = Wire.bool true ++ Wire.bool false ∧
        people.decode bytes = .ok (.vector (ints.map .int))) ∧
      ∃ bytes, people.encode (.vector [.long 1, .long 2]) = .ok bytes ∧
        people.decode bytes = .ok (.vector [.long 1, .long 2]) := by
  have hexact := decode_vector_exact compile_people (by decide)
  refine ⟨?_, ?_, hexact.2 _ (by decide) (.inl (by simp))⟩
  · intro places
    have hplace (x y : Int32) : people.Canonical (.generic .top)
        (.object 1 [("x", .int x), ("y", .int y)]) :=
      .object (d := place) rfl (by decide) (canonical_place x y)
    obtain ⟨encodings, bytes, heach, hencode, hguess⟩ :=
      hexact.1 places (by decide) (by simp [places, hplace])
    have hknown := encodings_eq heach
      (.cons (encode_place 3 4) (.cons (encode_place 5 6) .nil))
    rw [hknown] at hguess
    obtain ⟨others, hsame, hdecode⟩ := hguess.same (by decide) (by decide)
    exact ⟨bytes, others, hencode, hsame, hdecode⟩
  · obtain ⟨encodings, bytes, heach, hencode, hguess⟩ :=
      hexact.1 [.bool true, .bool false] (by decide) (by simp [Canonical.bool])
    have hknown := encodings_eq heach (.cons (encode_bool true) (.cons (encode_bool false) .nil))
    rw [hknown] at hguess
    obtain ⟨ints, -, hbytes, hdecode⟩ := hguess.ints rfl
    exact ⟨bytes, ints, hencode, hbytes, hdecode⟩

end PlanSet

end TypeLang
