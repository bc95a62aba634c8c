/-!
# Numbers in texts

Digits in a radix, and the integers of a fixed range that a text spells. A sign is optional;
`-` is refused where the range has no negative numbers. Blanks and separators are never part of a
number.
-/

namespace TypeLang.Text

/-- The value of a digit in radix `radix`, which is at most 36; letters in either case. -/
def digit? (radix : Nat) (c : Char) : Option Nat :=
  let value? :=
    if '0' ≤ c ∧ c ≤ '9' then some (c.toNat - '0'.toNat)
    else if 'a' ≤ c ∧ c ≤ 'z' then some (c.toNat - 'a'.toNat + 10)
    else if 'A' ≤ c ∧ c ≤ 'Z' then some (c.toNat - 'A'.toNat + 10)
    else none
  value?.filter (· < radix)

def digitsFrom? (radix acc : Nat) : List Char → Option Nat
  | [] => some acc
  | c :: cs => (digit? radix c).bind fun d => digitsFrom? radix (acc * radix + d) cs

def digits? (radix : Nat) (cs : List Char) : Option Nat :=
  if cs.isEmpty then none else digitsFrom? radix 0 cs

/-- The number below `bound` that a text spells, with an optional `+`. -/
def natBelow? (radix bound : Nat) (cs : List Char) : Option Nat :=
  let digits := match cs with
    | '+' :: rest => rest
    | _ => cs
  (digits? radix digits).filter (· < bound)

def uint32? (radix : Nat) (cs : List Char) : Option UInt32 :=
  (natBelow? radix UInt32.size cs).map UInt32.ofNat

/-- The signed 64-bit number that a text spells in decimal, with an optional sign. -/
def int64? (cs : List Char) : Option Int :=
  match cs with
  | '-' :: rest => ((digits? 10 rest).filter (· ≤ 0x8000000000000000)).map fun n => -(n : Int)
  | _ => (natBelow? 10 0x8000000000000000 cs).map Int.ofNat

/-! ## Printing -/

def hexDigit (n : Nat) : Char :=
  if n < 10 then Char.ofNat ('0'.toNat + n) else Char.ofNat ('a'.toNat + (n - 10))

/-- The lowest `width` hexadecimal digits of `n`, the highest first. -/
def hexDigits : (width : Nat) → (n : Nat) → List Char
  | 0, _ => []
  | width + 1, n => hexDigits width (n / 16) ++ [hexDigit (n % 16)]

def hex8 (n : UInt32) : String :=
  String.ofList (hexDigits 8 n.toNat)

end TypeLang.Text
