import TypeLang.Text.Number
import TypeLang.Wire.Bytes

/-!
# Reading bytes

A cursor stands between the bytes that were read and those that were not. Every reader gives a value
or an error, and the cursor where it stopped in either case. `take_eq` says that reading some bytes
is all or nothing.
-/

namespace TypeLang.Wire

inductive ReadError where
  | endOfBuffer
  | constructorId (id : UInt32)
  /-- A payload starts with a byte that is no header. -/
  | lengthHeader (byte : UInt8)
  | invalidUtf8
  | negativeCount (n : Int32)
  deriving DecidableEq, Repr

def ReadError.message : ReadError → String
  | .endOfBuffer => "unexpected end of buffer"
  | .constructorId id => "unexpected constructor id: 0x" ++ Text.hex8 id
  | .lengthHeader byte => "invalid length prefix 0x" ++ String.ofList (Text.hexDigits 2 byte.toNat)
  | .invalidUtf8 => "string is not valid UTF-8"
  | .negativeCount n => "negative vector length " ++ toString n.toInt

structure Cursor where
  /-- The number of bytes that were read. -/
  position : Nat
  /-- The bytes that were not read. -/
  rest : List UInt8
  deriving DecidableEq, Repr

namespace Cursor

def ofBytes (bytes : List UInt8) : Cursor := ⟨0, bytes⟩

def remaining (c : Cursor) : Nat := c.rest.length

def skip (c : Cursor) (n : Nat) : Cursor := ⟨c.position + n, c.rest.drop n⟩

end Cursor

abbrev Read := EStateM ReadError Cursor

namespace Read

/-- Reads `n` bytes, or none if there are fewer. -/
def take (n : Nat) : Read (List UInt8) := fun c =>
  let bytes := c.rest.take n
  if bytes.length = n then .ok bytes (c.skip n) else .error .endOfBuffer c

theorem take_eq (n : Nat) (c : Cursor) :
    take n c = if n ≤ c.remaining then .ok (c.rest.take n) (c.skip n) else .error .endOfBuffer c := by
  simp only [take, List.length_take, Cursor.remaining]
  congr 1
  simp only [eq_iff_iff]
  omega

def byte : Read UInt8 := fun c =>
  match c.rest with
  | b :: rest => .ok b ⟨c.position + 1, rest⟩
  | [] => .error .endOfBuffer c

def skip (n : Nat) : Read Unit := do
  let _ ← take n

def number (width : Nat) : Read Nat := do
  return ofLittleEndian (← take width)

def uint32 : Read UInt32 := do
  return UInt32.ofNat (← number 4)

def int32 : Read Int32 := do
  return (← uint32).toInt32

def uint64 : Read UInt64 := do
  return UInt64.ofNat (← number 8)

def int64 : Read Int64 := do
  return (← uint64).toInt64

/-- The number that the next four bytes spell, which stay unread. -/
def peekUInt32 : Read UInt32 := fun c =>
  match uint32 c with
  | .ok v _ => .ok v c
  | .error e _ => .error e c

def bool : Read Bool := do
  let id ← uint32
  if id = boolTrueId then return true
  else if id = boolFalseId then return false
  else throw (.constructorId id)

def raw (n : Nat) : Read (Vector UInt8 n) := fun c =>
  let bytes := c.rest.take n
  if h : bytes.length = n then .ok ⟨bytes.toArray, by simpa using h⟩ (c.skip n)
  else .error .endOfBuffer c

def payload : Read (List UInt8) := do
  let first ← byte
  if first = 0xff then throw (.lengthHeader first)
  else
    let (header, length) ←
      if first = 0xfe then do pure (4, ← number 3) else pure (1, first.toNat)
    let bytes ← take length
    skip (padding (header + length))
    return bytes

def string : Read String := do
  match Text.ofUtf8? (← payload) with
  | some s => return s
  | none => throw .invalidUtf8

/-- Reads the number of items of a vector, which must not be negative. -/
def count : Read Nat := do
  let n ← int32
  if 0 ≤ n.toInt then return n.toInt.toNat else throw (.negativeCount n)

/-- Reads an identifier, which must be `expected`. -/
def id (expected : UInt32) : Read Unit := do
  let found ← uint32
  if found = expected then return () else throw (.constructorId found)

/-- Reads `n` items behind `done`, which holds the last item first. -/
def itemsFrom {ε α : Type} (read : EStateM ε Cursor α) : (n : Nat) → (done : List α) →
    EStateM ε Cursor (List α)
  | 0, done => pure done.reverse
  | n + 1, done => fun c =>
    match read c with
    | .ok item c => itemsFrom read n (item :: done) c
    | .error e c => .error e c

theorem itemsFrom_succ {ε α : Type} (read : EStateM ε Cursor α) (n : Nat) (done : List α) :
    itemsFrom read (n + 1) done = (do itemsFrom read n ((← read) :: done)) := by
  funext c
  show _ = EStateM.bind read (fun item => itemsFrom read n (item :: done)) c
  simp only [itemsFrom, EStateM.bind]
  cases read c <;> rfl

def items {ε α : Type} (read : EStateM ε Cursor α) (n : Nat) : EStateM ε Cursor (List α) :=
  itemsFrom read n []

end Read

end TypeLang.Wire
