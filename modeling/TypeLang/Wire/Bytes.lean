import TypeLang.Text.Utf8
import TypeLang.Wire.Ids

/-!
# Writing bytes

How primitive values are written. Numbers are little-endian. A payload of bytes has its length in
front, in one byte if it is below 254 and otherwise in three bytes behind the marker `0xfe`, and is
filled up with zeros to a multiple of four.
-/

namespace TypeLang.Wire

/-- The lowest `width` bytes of a number, the lowest first. -/
def littleEndian : (width : Nat) → (n : Nat) → List UInt8
  | 0, _ => []
  | width + 1, n => UInt8.ofNat n :: littleEndian width (n / 256)

def ofLittleEndian : List UInt8 → Nat
  | [] => 0
  | b :: bs => b.toNat + 256 * ofLittleEndian bs

@[simp] theorem length_littleEndian (width n : Nat) : (littleEndian width n).length = width := by
  induction width generalizing n with
  | zero => rfl
  | succ width ih => simp [littleEndian, ih]

def uint32 (v : UInt32) : List UInt8 := littleEndian 4 v.toNat

@[simp] theorem length_uint32 (v : UInt32) : (uint32 v).length = 4 := by
  simp [uint32]

def int32 (v : Int32) : List UInt8 := uint32 v.toUInt32

def uint64 (v : UInt64) : List UInt8 := littleEndian 8 v.toNat

def int64 (v : Int64) : List UInt8 := uint64 v.toUInt64

/-- A truth value is written as one of two identifiers. -/
def bool (v : Bool) : List UInt8 := uint32 (if v then boolTrueId else boolFalseId)

/-! ## Payloads -/

/-- The longest payload whose length a header can hold. -/
def maxPayload : Nat := 0xffffff

/-- The zeros that fill `n` bytes up to a multiple of four. -/
def padding (n : Nat) : Nat := (4 - n % 4) % 4

def headerSize (n : Nat) : Nat := if n < 254 then 1 else 4

def payloadSize (n : Nat) : Nat :=
  headerSize n + n + padding (headerSize n + n)

def header (n : Nat) : List UInt8 :=
  if n < 254 then [UInt8.ofNat n] else 0xfe :: littleEndian 3 n

def payload (bytes : List UInt8) : List UInt8 :=
  header bytes.length
    ++ (bytes ++ List.replicate (padding (headerSize bytes.length + bytes.length)) 0)

def string (s : String) : List UInt8 := payload (Text.toUtf8 s)

theorem length_header (n : Nat) : (header n).length = headerSize n := by
  unfold header headerSize
  split <;> simp

theorem length_payload (bytes : List UInt8) :
    (payload bytes).length = payloadSize bytes.length := by
  simp [payload, payloadSize, length_header, Nat.add_assoc]

/-! ## Vectors -/

def count (n : Nat) : List UInt8 := littleEndian 4 n

def vectorHeader (n : Nat) : List UInt8 := uint32 vectorId ++ count n

end TypeLang.Wire
