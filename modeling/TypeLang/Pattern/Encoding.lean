import TypeLang.Pattern.CharSet

/-!
# The bytes of characters

Automata read bytes, and a range of characters has to be divided until each part is all that some
ranges of bytes, one after the other, spell. `CharSet.byteSequences` does so for a set.
-/

namespace TypeLang

/-- Ranges of bytes, one for each byte in a row. -/
abbrev ByteSequence := List (Nat × Nat)

def utf8Bytes (n : Nat) : List Nat :=
  if n < 0x80 then [n]
  else if n < 0x800 then [0xc0 + n / 0x40, 0x80 + n % 0x40]
  else if n < 0x10000 then [0xe0 + n / 0x1000, 0x80 + n / 0x40 % 0x40, 0x80 + n % 0x40]
  else [0xf0 + n / 0x40000, 0x80 + n / 0x1000 % 0x40, 0x80 + n / 0x40 % 0x40, 0x80 + n % 0x40]

/-- Where to divide a range of code points so that the bytes of both parts are closer to being
independent ranges: at a change of length, and at the ends of blocks of 64, of 4096 and of 262144
code points. The result is the last code point of the first part. -/
def cut? (first last : Nat) : Option Nat :=
  let lengths := [0x7f, 0x7ff, 0xffff].find? fun m => first ≤ m && m < last
  let blocks := [0x40, 0x1000, 0x40000].findSome? fun b =>
    if last < 0x80 ∨ first / b = last / b then none
    else if first % b ≠ 0 then some (first / b * b + (b - 1))
    else if last % b ≠ b - 1 then some (last / b * b - 1)
    else none
  lengths.or blocks

/-- The byte sequences of the code points from `first` to `last`. A range is divided at most `depth`
times in a row. -/
def byteSequences : (depth : Nat) → (first last : Nat) → List ByteSequence
  | 0, first, last => [(utf8Bytes first).zip (utf8Bytes last)]
  | depth + 1, first, last =>
    match cut? first last with
    | some middle => byteSequences depth first middle ++ byteSequences depth (middle + 1) last
    | none => [(utf8Bytes first).zip (utf8Bytes last)]

def CharSet.byteSequences (a : CharSet) : List ByteSequence :=
  a.ranges.flatMap fun r => TypeLang.byteSequences 20 r.1 r.2

end TypeLang
