import TypeLang.Codec.Reference
import TypeLang.Value

/-!
# Reading values

How a plan set reads a value. Where a type is declared, it says what follows; elsewhere the first
four bytes do. Objects are nested no deeper than the remaining bytes and the number of declarations
allow, unless a declaration contains itself without a byte in between.
-/

namespace TypeLang

abbrev Decoding := EStateM CodecError Wire.Cursor

namespace Decoding

def wire (read : Wire.Read α) : Decoding α := fun c =>
  match read c with
  | .ok v c => .ok v c
  | .error e c => .error (.wire e) c

def run (read : Decoding α) (bytes : List UInt8) : Except CodecError α :=
  match read (.ofBytes bytes) with
  | .ok v _ => .ok v
  | .error e _ => .error e

end Decoding

open Decoding (wire)

namespace PlanSet

def readPrimitive (generic : Decoding Value) : Primitive → Decoding Value
  | .int => Value.int <$> wire Wire.Read.int32
  | .long => Value.long <$> wire Wire.Read.int64
  | .double => Value.double <$> wire Wire.Read.uint64
  | .bool => Value.bool <$> wire Wire.Read.bool
  | .trueLiteral => pure (.bool true)
  | .bytes => Value.bytes <$> wire Wire.Read.payload
  | .string => Value.string <$> wire Wire.Read.string
  | .int128 => Value.int128 <$> wire (Wire.Read.raw 16)
  | .int256 => Value.int256 <$> wire (Wire.Read.raw 32)
  | .json => Value.json <$> wire JsonValue.read
  | .flags => Value.int <$> wire Wire.Read.int32
  | .object => generic

/-- Reads a value where a type is declared. Objects are read by `body` and values that tell their
own type by `generic`. -/
def readTyped (p : PlanSet) (body : DeclarationPlan → Decoding Value)
    (generic : Decoding Value) (site : Site) : TypeExpr → Decoding Value
  | .primitive kind => readPrimitive generic kind
  | .vector inner boxed => do
    if boxed then wire (Wire.Read.id Wire.vectorId)
    let n ← wire Wire.Read.count
    return .vector (← Wire.Read.items (readTyped p body generic site inner) n)
  | .var _ => generic
  | .named name true => do body (← ofExcept (p.bare site.schemaPrefix name))
  | .named name false => do
    let id ← wire Wire.Read.uint32
    body (← ofExcept (p.typed site name id))
  | .flag _ inner => readTyped p body generic site inner

/-- Is the bit of a field set in the last of the flags words with its name? -/
def isSet (words : List (String × UInt32)) (flag : Flag) : Bool :=
  match words.lookup flag.word with
  | some word => word &&& flag.mask != 0
  | none => false

/-- Reads the fields of an object. The flags words so far, the last one first, are in `words`, and
`fields` holds the fields so far. -/
def readFields (read : FieldPlan → Decoding Value) (words : List (String × UInt32))
    (fields : Fields) : List FieldPlan → Decoding Fields
  | [] => pure fields
  | f :: rest =>
    let isThere := match f.flag? with
      | some flag => isSet words flag
      | none => true
    match f.kind with
    | .flagsWord _ => do
      let word ← wire Wire.Read.uint32
      readFields read ((f.name, word) :: words) fields rest
    | .trueBit => readFields read words (fields.set f.name (.bool isThere)) rest
    | _ =>
      if isThere then do
        let value ← read f
        readFields read words (fields.set f.name value) rest
      else readFields read words fields rest

mutual

/-- Reads a value that tells its own type. The items of a vector are taken for the widest numbers
with which they fill the rest of the bytes, and otherwise tell their own types. -/
def readGeneric (p : PlanSet) (depth : Nat) : Decoding Value :=
  match depth with
  | 0 => throw (.endless Site.top.field)
  | depth + 1 => do
    let id ← wire Wire.Read.peekUInt32
    if id = Wire.boolTrueId ∨ id = Wire.boolFalseId then return .bool (← wire Wire.Read.bool)
    else if id = Wire.vectorId then
      wire (Wire.Read.skip 4)
      let n ← wire Wire.Read.count
      let remaining := (← get).remaining
      if n * 8 = remaining then
        return .vector (← Wire.Read.items (Value.long <$> wire Wire.Read.int64) n)
      else if n * 4 = remaining then
        return .vector (← Wire.Read.items (Value.int <$> wire Wire.Read.int32) n)
      else return .vector (← Wire.Read.items (readGeneric p depth) n)
    else if Wire.jsonIds.contains id then return .json (← wire JsonValue.read)
    else
      let id ← wire Wire.Read.uint32
      readBody p depth (← ofExcept (p.dispatched id))

def readBody (p : PlanSet) (depth : Nat) (d : DeclarationPlan) : Decoding Value :=
  match depth with
  | 0 => throw (.endless d.name)
  | depth + 1 => do
    let read (f : FieldPlan) := readTyped p (readBody p depth) (readGeneric p depth) (d.site f) f.valueType
    return .object d.id (← readFields read [] [] d.layout.fields)

end

/-- How deep values can be nested in `remaining` bytes: between two bytes no declaration contains
itself. -/
def maxDepth (p : PlanSet) (remaining : Nat) : Nat :=
  (remaining + 1) * (p.declarations.length + 2)

def decodeFrom (p : PlanSet) : Decoding Value := fun c =>
  readGeneric p (p.maxDepth c.remaining) c

def decode (p : PlanSet) (bytes : List UInt8) : Except CodecError Value :=
  p.decodeFrom.run bytes

/-- The result of the method with the given identifier, at the start of some bytes. -/
def decodeResult (p : PlanSet) (id : UInt32) (bytes : List UInt8) : Except CodecError Value := do
  let d ← p.method id
  let depth := p.maxDepth bytes.length
  let read := readTyped p (readBody p depth) (readGeneric p depth) ⟨d.schemaPrefix, "result"⟩ d.result
  read.run bytes

end PlanSet

end TypeLang
