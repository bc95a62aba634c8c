import TypeLang.Text.Blank
import TypeLang.Text.Number
import TypeLang.Text.Split

/-!
# Identifier texts

A JSON schema gives identifiers as texts, hexadecimal or decimal. A negative decimal number stands
for the identifier with the same 32 bits.
-/

namespace TypeLang

inductive IdFormat where
  /-- Hexadecimal if the text starts with `0x` or holds a hexadecimal letter, else decimal. -/
  | auto
  | hex
  | decimal
  deriving DecidableEq, Repr, Inhabited

namespace IdFormat

def label : IdFormat → String
  | auto => "auto"
  | hex => "hex"
  | decimal => "decimal"

def ofLabel? (label : String) : Option IdFormat :=
  [auto, hex, decimal].find? (·.label == label)

def idOfInt? (n : Int) : Option UInt32 :=
  if -0x80000000 ≤ n ∧ n < 0x100000000 then some (UInt32.ofNat (n % 0x100000000).toNat) else none

def decimalId? (text : List Char) : Option UInt32 :=
  (Text.int64? text).bind idOfInt?

def hexId? (text : List Char) : Option UInt32 :=
  Text.uint32? 16 text

def afterHexMark? (text : List Char) : Option (List Char) :=
  (Text.dropHead? ['0', 'x'] text).or (Text.dropHead? ['0', 'X'] text)

def isHexLetter (c : Char) : Bool :=
  (Text.digit? 16 c).isSome && !c.isDigit

def id? (format : IdFormat) (text : String) : Option UInt32 :=
  let raw := Text.trimChars text.toList
  match format with
  | hex => hexId? ((afterHexMark? raw).getD raw)
  | decimal => decimalId? raw
  | auto =>
    match afterHexMark? raw with
    | some digits => hexId? digits
    | none => if raw.any isHexLetter then hexId? raw else decimalId? raw

end IdFormat

end TypeLang
