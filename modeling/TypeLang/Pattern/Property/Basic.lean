import TypeLang.Pattern.CharSet

/-!
# Properties and their tables

The standard for characters gives properties to them. The members of a property stand in tables,
and a table is a text. It tells by turns how many code points in a row are not in the table and how
many are. Each number is written to the base 26 with letters for the digits, from `a` for 0 to `z`
for 25, and the last digit of it is a capital.
-/

namespace TypeLang

structure Property where
  /-- Its names in normal form. -/
  names : List String
  /-- Tables that hold the members together. -/
  tables : List String

namespace CharSet

/-- Reads the numbers of a table, where `digits` is what the digits so far stand for. -/
def tableNumbers (digits : Nat) : List Char → List Nat
  | [] => []
  | c :: cs =>
    if c.isUpper then (26 * digits + (c.toNat - 'A'.toNat)) :: tableNumbers 0 cs
    else if c.isLower then tableNumbers (26 * digits + (c.toNat - 'a'.toNat)) cs
    else tableNumbers digits cs

/-- The ranges that the numbers of a table describe, from a code point on. -/
def tableRanges (start : Nat) : List Nat → List (Nat × Nat)
  | outside :: inside :: rest =>
    let first := start + outside
    (first, first + (inside - 1)) :: tableRanges (first + inside) rest
  | _ => []

def ofTables (tables : List String) : CharSet :=
  tables.foldl (fun set table => set.union ⟨tableRanges 0 (tableNumbers 0 table.toList)⟩) empty

end CharSet

end TypeLang
