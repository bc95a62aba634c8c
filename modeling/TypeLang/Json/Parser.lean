import TypeLang.Json
import TypeLang.Text.Number
import TypeLang.Text.Split

/-!
# Reading JSON

`Json.parse?` reads a text that holds one JSON value and otherwise only blanks. Each reader takes a
text and gives what it read from the start together with the rest.
-/

namespace TypeLang.Json

def isSpace (c : Char) : Bool :=
  c == ' ' || c == '\n' || c == '\t' || c == '\r'

def skipSpace (cs : List Char) : List Char :=
  cs.dropWhile isSpace

/-! ## Strings -/

/-- A character of a quoted string or a 16-bit unit that an escape names. -/
inductive Piece where
  | char (c : Char)
  | unit (n : Nat)

def escaped? (c : Char) : Option Char :=
  match c with
  | '"' => some '"'
  | '\\' => some '\\'
  | '/' => some '/'
  | 'b' => some '\x08'
  | 'f' => some '\x0c'
  | 'n' => some '\n'
  | 'r' => some '\r'
  | 't' => some '\t'
  | _ => none

/-- Reads the pieces of a string behind its opening quote, and the closing quote. -/
def pieces? : List Char → Option (List Piece × List Char)
  | [] => none
  | '"' :: rest => some ([], rest)
  | '\\' :: 'u' :: a :: b :: c :: d :: rest => do
    let n ← Text.digits? 16 [a, b, c, d]
    let (pieces, rest) ← pieces? rest
    return (.unit n :: pieces, rest)
  | '\\' :: e :: rest => do
    let c ← escaped? e
    let (pieces, rest) ← pieces? rest
    return (.char c :: pieces, rest)
  | c :: rest =>
    if c.toNat < 0x20 ∨ c = '\\' then none
    else do
      let (pieces, rest) ← pieces? rest
      return (.char c :: pieces, rest)

def isHighSurrogate (n : Nat) : Bool := 0xd800 ≤ n && n < 0xdc00

def isLowSurrogate (n : Nat) : Bool := 0xdc00 ≤ n && n < 0xe000

/-- The characters that the pieces spell; a surrogate stands only in a pair. -/
def decode? : List Piece → Option (List Char)
  | [] => some []
  | .char c :: rest => (decode? rest).map (c :: ·)
  | .unit high :: .unit low :: rest =>
    if isHighSurrogate high then
      if isLowSurrogate low then
        let c := Char.ofNat (0x10000 + (high - 0xd800) * 0x400 + (low - 0xdc00))
        (decode? rest).map (c :: ·)
      else none
    else if isLowSurrogate high then none
    else (decode? (.unit low :: rest)).map (Char.ofNat high :: ·)
  | .unit n :: rest =>
    if isHighSurrogate n || isLowSurrogate n then none
    else (decode? rest).map (Char.ofNat n :: ·)

/-! ## Numbers -/

/-- Cuts off a fraction, which is a point and one or more digits. -/
def fraction? : List Char → Option (List Char × List Char)
  | '.' :: rest =>
    match rest.takeWhile Char.isDigit with
    | [] => none
    | digits => some ('.' :: digits, rest.dropWhile Char.isDigit)
  | cs => some ([], cs)

/-- Cuts off an exponent, which is a letter `e`, a sign that may be missing, and one or more
digits. -/
def exponent? (cs : List Char) : Option (List Char × List Char) :=
  match cs with
  | e :: rest =>
    if e = 'e' ∨ e = 'E' then
      let (sign, rest) := match rest with
        | '+' :: rest => (['+'], rest)
        | '-' :: rest => (['-'], rest)
        | _ => ([], rest)
      match rest.takeWhile Char.isDigit with
      | [] => none
      | digits => some (e :: sign ++ digits, rest.dropWhile Char.isDigit)
    else some ([], cs)
  | [] => some ([], cs)

/-- Reads a number without its sign. A zero in front of another digit is refused. -/
def number? (negative : Bool) (cs : List Char) : Option (Json × List Char) := do
  let digits := cs.takeWhile Char.isDigit
  let whole ← Text.digits? 10 digits
  if digits.head? = some '0' ∧ digits.length ≠ 1 then none
  else
    let (fraction, rest) ← fraction? (cs.dropWhile Char.isDigit)
    let (exponent, rest) ← exponent? rest
    let sign := if negative then ['-'] else []
    if fraction.isEmpty && exponent.isEmpty && !(negative && whole == 0) then
      return (.integer (if negative then -whole else whole), rest)
    else return (.decimal (String.ofList (sign ++ digits ++ fraction ++ exponent)), rest)

/-! ## Values -/

def word? (cs : List Char) : Option (Json × List Char) :=
  [("null", .null), ("true", .bool true), ("false", .bool false)].findSome? fun (word, j) =>
    (Text.dropHead? word.toList cs).map (j, ·)

mutual

def value? : (depth : Nat) → List Char → Option (Json × List Char)
  | 0, _ => none
  | depth + 1, cs =>
    match skipSpace cs with
    | '"' :: rest => do
      let (pieces, rest) ← pieces? rest
      match decode? pieces with
      | some text => return (.string (String.ofList text), rest)
      | none => return (.unpaired, rest)
    | '[' :: rest =>
      match skipSpace rest with
      | ']' :: rest => some (.array [], rest)
      | _ => (items? depth rest).map fun (items, rest) => (.array items, rest)
    | '\x7b' :: rest =>
      match skipSpace rest with
      | '\x7d' :: rest => some (.object [], rest)
      | _ => (members? depth rest).map fun (members, rest) =>
        ((members.mapM id).elim .unpaired .object, rest)
    | '-' :: rest => number? true rest
    | c :: rest => if c.isDigit then number? false (c :: rest) else word? (c :: rest)
    | [] => none

/-- Reads the items of an array behind its bracket or a comma, and the closing bracket. -/
def items? : (depth : Nat) → List Char → Option (List Json × List Char)
  | 0, _ => none
  | depth + 1, cs => do
    let (item, rest) ← value? depth cs
    match skipSpace rest with
    | ']' :: rest => return ([item], rest)
    | ',' :: rest => do
      let (items, rest) ← items? depth rest
      return (item :: items, rest)
    | _ => none

/-- Reads the members of an object behind its brace or a comma, and the closing brace. A member
whose key has no value is `none`. -/
def members? : (depth : Nat) → List Char → Option (List (Option (String × Json)) × List Char)
  | 0, _ => none
  | depth + 1, cs =>
    match skipSpace cs with
    | '"' :: rest => do
      let (pieces, rest) ← pieces? rest
      match skipSpace rest with
      | ':' :: rest => do
        let (v, rest) ← value? depth rest
        let member := (decode? pieces).map fun key => (String.ofList key, v)
        match skipSpace rest with
        | '\x7d' :: rest => return ([member], rest)
        | ',' :: rest => do
          let (members, rest) ← members? depth rest
          return (member :: members, rest)
        | _ => none
      | _ => none
    | _ => none

end

/-- Reads a text that is one value. No value needs more depth than it has characters. -/
def parse? (text : String) : Option Json :=
  match value? (text.toList.length + 1) text.toList with
  | some (j, rest) => if (skipSpace rest).isEmpty then some j else none
  | none => none

end TypeLang.Json
