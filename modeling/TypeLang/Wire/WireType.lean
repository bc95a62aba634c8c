import TypeLang.Wire.JsonValue

/-!
# Wire types

The types whose values can be written and read without a schema. Every wire type has its own type of
values, so that a value always fits the type under which it is written.
-/

namespace TypeLang

inductive WireType where
  | int
  | uint
  | long
  /-- Known by its bits. -/
  | double
  | bool
  | bytes
  | string
  | int128
  | int256
  | json
  /-- A vector behind its identifier. -/
  | boxed (item : WireType)
  /-- A vector without an identifier. -/
  | bare (item : WireType)
  deriving DecidableEq, Repr, Inhabited

namespace WireType

@[reducible] def Carrier : WireType → Type
  | int => Int32
  | uint => UInt32
  | long => Int64
  | double => UInt64
  | bool => Bool
  | bytes => List UInt8
  | string => String
  | int128 => Vector UInt8 16
  | int256 => Vector UInt8 32
  | json => JsonValue
  | boxed item => List item.Carrier
  | bare item => List item.Carrier

def encode : (t : WireType) → t.Carrier → List UInt8
  | int, v => Wire.int32 v
  | uint, v => Wire.uint32 v
  | long, v => Wire.int64 v
  | double, v => Wire.uint64 v
  | bool, v => Wire.bool v
  | bytes, v => Wire.payload v
  | string, v => Wire.string v
  | int128, v => v.toList
  | int256, v => v.toList
  | json, v => v.encode
  | boxed item, vs => Wire.vectorHeader vs.length ++ vs.flatMap item.encode
  | bare item, vs => Wire.count vs.length ++ vs.flatMap item.encode

def read : (t : WireType) → Wire.Read t.Carrier
  | int => Wire.Read.int32
  | uint => Wire.Read.uint32
  | long => Wire.Read.int64
  | double => Wire.Read.uint64
  | bool => Wire.Read.bool
  | bytes => Wire.Read.payload
  | string => Wire.Read.string
  | int128 => Wire.Read.raw 16
  | int256 => Wire.Read.raw 32
  | json => JsonValue.read
  | boxed item => do
    Wire.Read.id Wire.vectorId
    let n ← Wire.Read.count
    Wire.Read.items item.read n
  | bare item => do
    let n ← Wire.Read.count
    Wire.Read.items item.read n

def decode (t : WireType) (bytes : List UInt8) : Except Wire.ReadError t.Carrier :=
  match t.read (.ofBytes bytes) with
  | .ok v _ => .ok v
  | .error e _ => .error e

end WireType

end TypeLang
