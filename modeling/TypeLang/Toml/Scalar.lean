import TypeLang.Text.Number
import TypeLang.Text.Split
import TypeLang.Toml

/-!
# TOML scalars

The values that are written without quotes and brackets: truth values, numbers, dates and times.
-/

namespace TypeLang.Toml

def digitGroups? (isDigit : Char → Bool) (cs : List Char) : Option (List Char) :=
  let groups := Text.splitAll '_' cs
  if groups.all fun g => !g.isEmpty && g.all isDigit then some groups.flatten else none

def sign (cs : List Char) : Bool × List Char :=
  match cs with
  | '-' :: rest => (true, rest)
  | '+' :: rest => (false, rest)
  | _ => (false, cs)

def wholeDigits? (cs : List Char) : Option (List Char) := do
  let digits ← digitGroups? Char.isDigit cs
  if digits.head? = some '0' ∧ cs.length ≠ 1 then none else return digits

def radixNumber? (radix : Nat) (cs : List Char) : Option Nat :=
  (digitGroups? (fun c => (Text.digit? radix c).isSome) cs).bind (Text.digits? radix)

def integer? (cs : List Char) : Option Int :=
  match cs with
  | '0' :: 'x' :: rest => (radixNumber? 16 rest).map Int.ofNat
  | '0' :: 'o' :: rest => (radixNumber? 8 rest).map Int.ofNat
  | '0' :: 'b' :: rest => (radixNumber? 2 rest).map Int.ofNat
  | _ => do
    let (negative, digits) := sign cs
    let n ← (wholeDigits? digits).bind (Text.digits? 10)
    return if negative then -(n : Int) else n

/-- Integers have 64 bits, with or without a sign. -/
def fits (n : Int) : Bool :=
  -0x8000000000000000 ≤ n && n < 0x10000000000000000

/-! ## Floating-point numbers -/

/-- Is `mantissa · 10 ^ exponent` too large for 64-bit floating point? -/
def overflows (mantissa : Nat) (exponent : Int) : Bool :=
  let limit := (1 <<< 1024) - (1 <<< 970)
  let magnitude := (Nat.toDigits 10 mantissa).length + exponent
  if mantissa = 0 then false
  else if magnitude < 309 then false
  else if 309 < magnitude then true
  else if 0 ≤ exponent then limit ≤ mantissa * Nat.pow 10 exponent.toNat
  else limit * Nat.pow 10 (-exponent).toNat ≤ mantissa

def splitExponent (cs : List Char) : List Char × Option (List Char) :=
  let isE (c : Char) := c == 'e' || c == 'E'
  (cs.takeWhile (!isE ·), (cs.dropWhile (!isE ·)).tail?)

def isFloat (cs : List Char) : Bool :=
  let (_, body) := sign cs
  if body = ['i', 'n', 'f'] ∨ body = ['n', 'a', 'n'] then true
  else
    let (digits, exponent?) := splitExponent body
    let (whole, fraction?) := match Text.splitFirst '.' digits with
      | some (whole, fraction) => (whole, some fraction)
      | none => (digits, none)
    let parts : Option (Nat × Int) := do
      let whole ← wholeDigits? whole
      let fraction ← match fraction? with
        | some fraction => digitGroups? Char.isDigit fraction
        | none => some []
      let exponent ← match exponent? with
        | some exponent => do
          let (negative, digits) := sign exponent
          let n ← (digitGroups? Char.isDigit digits).bind (Text.digits? 10)
          pure (if negative then -(n : Int) else n)
        | none => some 0
      return (← Text.digits? 10 (whole ++ fraction), exponent - fraction.length)
    if fraction?.isNone && exponent?.isNone then false
    else parts.any fun (mantissa, exponent) => !overflows mantissa exponent

/-! ## Dates and times -/

def fixedNumber? (width : Nat) (cs : List Char) : Option Nat :=
  if cs.length = width ∧ cs.all Char.isDigit then Text.digits? 10 cs else none

def daysOfMonth (year month : Nat) : Nat :=
  if month = 2 then
    if year % 4 = 0 ∧ (year % 100 ≠ 0 ∨ year % 400 = 0) then 29 else 28
  else if month = 4 ∨ month = 6 ∨ month = 9 ∨ month = 11 then 30
  else 31

def isDate (cs : List Char) : Bool :=
  match (Text.splitAll '-' cs) with
  | [y, m, d] =>
    match fixedNumber? 4 y, fixedNumber? 2 m, fixedNumber? 2 d with
    | some y, some m, some d => 1 ≤ m && m ≤ 12 && 1 ≤ d && d ≤ daysOfMonth y m
    | _, _, _ => false
  | _ => false

def isHourMinute (h m : List Char) : Bool :=
  match fixedNumber? 2 h, fixedNumber? 2 m with
  | some h, some m => h ≤ 23 && m ≤ 59
  | _, _ => false

/-- Seconds, with or without a fraction. A second may be a leap second. -/
def isSecond (cs : List Char) : Bool :=
  let (s, fraction?) := match Text.splitFirst '.' cs with
    | some (s, fraction) => (s, some fraction)
    | none => (cs, none)
  (fixedNumber? 2 s).any (· ≤ 60) && fraction?.all fun f => !f.isEmpty && f.all Char.isDigit

def isTime (cs : List Char) : Bool :=
  match Text.splitAll ':' cs with
  | [h, m] => isHourMinute h m
  | [h, m, s] => isHourMinute h m && isSecond s
  | _ => false

def isOffset (cs : List Char) : Bool :=
  match cs with
  | ['Z'] | ['z'] => true
  | s :: rest =>
    (s == '+' || s == '-')
      && match Text.splitAll ':' rest with
        | [h, m] => isHourMinute h m
        | _ => false
  | [] => false

def isOffsetTime (cs : List Char) : Bool :=
  let inTime (c : Char) := c.isDigit || c == ':' || c == '.'
  let offset := cs.dropWhile inTime
  isTime (cs.takeWhile inTime) && (offset.isEmpty || isOffset offset)

/-- A date, a time, or a date and a time behind a `T` or a blank. -/
def isMoment (cs : List Char) : Bool :=
  isDate cs || isTime cs
    || (isDate (cs.take 10)
      && match cs.drop 10 with
        | c :: time => (c == 'T' || c == 't' || c == ' ') && isOffsetTime time
        | [] => false)

def scalar? (cs : List Char) : Option Toml :=
  if cs = ['t', 'r', 'u', 'e'] then some (.bool true)
  else if cs = ['f', 'a', 'l', 's', 'e'] then some (.bool false)
  else
    match integer? cs with
    | some n => if fits n then some (.integer n) else none
    | none =>
      if isFloat cs then some (.float (String.ofList cs))
      else if isMoment cs then some (.moment (String.ofList cs))
      else none

end TypeLang.Toml
