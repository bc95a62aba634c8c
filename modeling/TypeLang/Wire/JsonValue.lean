import TypeLang.Wire.Cursor

/-!
# JSON on the wire

A JSON value is written as an identifier for its kind and its content. A floating-point number is
known by its bits. Members keep their order and their repetitions.
-/

namespace TypeLang

inductive JsonValue where
  | null
  | bool (value : Bool)
  | number (bits : UInt64)
  | string (value : String)
  | array (items : List JsonValue)
  | object (members : List (String × JsonValue))
  deriving Repr, Inhabited

namespace JsonValue

/-! ## Writing -/

mutual

def encode : JsonValue → List UInt8
  | null => Wire.uint32 Wire.jsonNullId
  | bool v => Wire.uint32 Wire.jsonBoolId ++ Wire.bool v
  | number bits => Wire.uint32 Wire.jsonNumberId ++ Wire.uint64 bits
  | string s => Wire.uint32 Wire.jsonStringId ++ Wire.string s
  | array items =>
    Wire.uint32 Wire.jsonArrayId ++ (Wire.vectorHeader items.length ++ encodeItems items)
  | object members =>
    Wire.uint32 Wire.jsonObjectId ++ (Wire.vectorHeader members.length ++ encodeMembers members)

def encodeItems : List JsonValue → List UInt8
  | [] => []
  | item :: rest => encode item ++ encodeItems rest

def encodeMembers : List (String × JsonValue) → List UInt8
  | [] => []
  | (key, value) :: rest =>
    Wire.uint32 Wire.jsonObjectValueId ++ (Wire.string key ++ (encode value ++ encodeMembers rest))

end

/-! ## Size -/

mutual

def encodedSize : JsonValue → Nat
  | null => 4
  | bool _ => 8
  | number _ => 12
  | string s => 4 + Wire.payloadSize s.utf8ByteSize
  | array items => 12 + itemsSize items
  | object members => 12 + membersSize members

def itemsSize : List JsonValue → Nat
  | [] => 0
  | item :: rest => encodedSize item + itemsSize rest

def membersSize : List (String × JsonValue) → Nat
  | [] => 0
  | (key, value) :: rest =>
    4 + Wire.payloadSize key.utf8ByteSize + encodedSize value + membersSize rest

end

mutual

theorem length_encode (j : JsonValue) : j.encode.length = j.encodedSize := by
  match j with
  | null => simp [encode, encodedSize, Wire.uint32]
  | bool v => simp [encode, encodedSize, Wire.uint32, Wire.bool]
  | number bits => simp [encode, encodedSize, Wire.uint32, Wire.uint64]
  | string s => simp [encode, encodedSize, Wire.uint32, Wire.string, Wire.length_payload]
  | array items =>
    simp [encode, encodedSize, Wire.uint32, Wire.vectorHeader, Wire.count,
      length_encodeItems items]
    omega
  | object members =>
    simp [encode, encodedSize, Wire.uint32, Wire.vectorHeader, Wire.count,
      length_encodeMembers members]
    omega

theorem length_encodeItems (items : List JsonValue) :
    (encodeItems items).length = itemsSize items := by
  match items with
  | [] => rfl
  | item :: rest => simp [encodeItems, itemsSize, length_encode item, length_encodeItems rest]

theorem length_encodeMembers (members : List (String × JsonValue)) :
    (encodeMembers members).length = membersSize members := by
  match members with
  | [] => rfl
  | (key, value) :: rest =>
    simp [encodeMembers, membersSize, Wire.uint32, Wire.string, Wire.length_payload,
      length_encode value, length_encodeMembers rest]
    omega

end

/-! ## Reading -/

def readMember (value : Wire.Read JsonValue) : Wire.Read (String × JsonValue) := do
  Wire.Read.id Wire.jsonObjectValueId
  let key ← Wire.Read.string
  return (key, ← value)

def readNested : (depth : Nat) → Wire.Read JsonValue
  | 0 => throw .endOfBuffer
  | depth + 1 => do
    let id ← Wire.Read.uint32
    if id = Wire.jsonNullId then return null
    else if id = Wire.jsonBoolId then return bool (← Wire.Read.bool)
    else if id = Wire.jsonNumberId then return number (← Wire.Read.uint64)
    else if id = Wire.jsonStringId then return string (← Wire.Read.string)
    else if id = Wire.jsonArrayId then
      Wire.Read.id Wire.vectorId
      let n ← Wire.Read.count
      return array (← Wire.Read.items (readNested depth) n)
    else if id = Wire.jsonObjectId then
      Wire.Read.id Wire.vectorId
      let n ← Wire.Read.count
      return object (← Wire.Read.items (readMember (readNested depth)) n)
    else throw (.constructorId id)

/-- Reads a value. Each level of nesting takes an identifier of its own, so that the remaining bytes
bound the depth. -/
def read : Wire.Read JsonValue := fun c =>
  readNested (c.remaining + 1) c

end JsonValue

end TypeLang
