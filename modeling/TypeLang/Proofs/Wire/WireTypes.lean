import TypeLang.Proofs.Wire.JsonRoundTrip
import TypeLang.Wire.WireType

/-!
# Reading values of wire types back

A value of a wire type is read back from its bytes, whatever stands behind them and however deep
vectors are nested, if every payload in it has a header and every count is a 32-bit number that is
not negative. The reader stops right behind the bytes, whose number `encodedSize` tells beforehand.
-/

namespace TypeLang

namespace Wire

theorem length_count (n : Nat) : (count n).length = 4 :=
  length_littleEndian 4 n

theorem length_vectorHeader (n : Nat) : (vectorHeader n).length = 8 := by
  rw [vectorHeader, List.length_append, length_uint32, length_count]

end Wire

namespace WireType

open Wire (Takes)

/-- Every payload has a header, and every count is a 32-bit number that is not negative. -/
def Fits : (t : WireType) → t.Carrier → Prop
  | bytes, payload => payload.length ≤ Wire.maxPayload
  | string, text => text.utf8ByteSize ≤ Wire.maxPayload
  | json, j => j.Fits
  | boxed item, vs => vs.length < 2 ^ 31 ∧ ∀ v ∈ vs, item.Fits v
  | bare item, vs => vs.length < 2 ^ 31 ∧ ∀ v ∈ vs, item.Fits v
  | _, _ => True

def encodedSize : (t : WireType) → t.Carrier → Nat
  | int, _ => 4
  | uint, _ => 4
  | long, _ => 8
  | double, _ => 8
  | bool, _ => 4
  | bytes, payload => Wire.payloadSize payload.length
  | string, text => Wire.payloadSize text.utf8ByteSize
  | int128, _ => 16
  | int256, _ => 32
  | json, j => j.encodedSize
  | boxed item, vs => 8 + (vs.map item.encodedSize).sum
  | bare item, vs => 4 + (vs.map item.encodedSize).sum

private theorem length_items {item : WireType}
    (h : ∀ v : item.Carrier, (item.encode v).length = item.encodedSize v) (vs : List item.Carrier) :
    (vs.flatMap item.encode).length = (vs.map item.encodedSize).sum := by
  rw [List.length_flatMap, List.map_congr_left fun v _ => h v]

theorem length_encode (t : WireType) (v : t.Carrier) : (t.encode v).length = t.encodedSize v := by
  induction t with
  | int => exact Wire.length_uint32 _
  | uint => exact Wire.length_uint32 _
  | long => exact Wire.length_littleEndian ..
  | double => exact Wire.length_littleEndian ..
  | bool => exact Wire.length_uint32 _
  | bytes => exact Wire.length_payload v
  | string => exact Wire.length_payload (Text.toUtf8 v)
  | int128 => exact v.length_toList
  | int256 => exact v.length_toList
  | json => exact v.length_encode
  | boxed item ih =>
      rw [encode, List.length_append, length_items ih, Wire.length_vectorHeader, encodedSize]
  | bare item ih =>
      rw [encode, List.length_append, length_items ih, Wire.length_count, encodedSize]

theorem read_takes (t : WireType) {v : t.Carrier} (h : t.Fits v) :
    Takes t.read (t.encode v) v := by
  -- On the type: a vector is read back if its items are, whatever their type.
  induction t with
  | int => exact Wire.Read.int32_takes v
  | uint => exact Wire.Read.uint32_takes v
  | long => exact Wire.Read.int64_takes v
  | double => exact Wire.Read.uint64_takes v
  | bool => exact Wire.Read.bool_takes v
  | bytes => exact Wire.Read.payload_takes h
  | string => exact Wire.Read.string_takes h
  | int128 => exact Wire.Read.raw_takes v
  | int256 => exact Wire.Read.raw_takes v
  | json => exact JsonValue.read_takes h
  | bare item ih =>
      obtain ⟨hcount, hitems⟩ := h
      apply (Wire.Read.count_takes hcount).bind
      simpa using Wire.Read.items_takes_map fun x hx => ih (hitems x hx)
  | boxed item ih =>
      obtain ⟨hcount, hitems⟩ := h
      unfold encode Wire.vectorHeader
      rw [List.append_assoc]
      apply (Wire.Read.id_takes Wire.vectorId).bind
      apply (Wire.Read.count_takes hcount).bind
      simpa using Wire.Read.items_takes_map fun x hx => ih (hitems x hx)

/-- A value is read back from its bytes in front of any others, and exactly these are taken. Their
number is known without writing them. -/
theorem read_encode {t : WireType} {v : t.Carrier} (h : t.Fits v) (rest : List UInt8) :
    t.read (.ofBytes (t.encode v ++ rest)) = .ok v ⟨(t.encode v).length, rest⟩ ∧
      (t.encode v).length = t.encodedSize v := by
  have hread := read_takes t h 0 rest
  rw [Nat.zero_add] at hread
  exact ⟨hread, length_encode t v⟩

/-- Two bare vectors of texts in a boxed one, the second without texts. -/
theorem read_encode_texts :
    let t : WireType := .boxed (.bare .string)
    let texts : t.Carrier := [["ab", ""], []]
    t.Fits texts ∧
      t.read (.ofBytes (t.encode texts ++ [7])) = .ok texts ⟨24, [7]⟩ ∧
      t.encodedSize texts = 24 := by
  intro t texts
  have hfits : t.Fits texts := by
    simp only [t, texts, Fits]
    decide
  obtain ⟨hread, hsize⟩ := read_encode hfits [7]
  have hlength : t.encodedSize texts = 24 := by
    decide
  rw [hsize, hlength] at hread
  exact ⟨hfits, hread, hlength⟩

end WireType

end TypeLang
