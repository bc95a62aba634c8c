/-!
# Blank characters

The Unicode `White_Space` property and trimming by it.
-/

namespace TypeLang.Text

/-- Has the Unicode property `White_Space`. -/
def isBlank (c : Char) : Bool :=
  (0x09 ≤ c.toNat && c.toNat ≤ 0x0d) || c.toNat == 0x20 || c.toNat == 0x85 || c.toNat == 0xa0 ||
    c.toNat == 0x1680 || (0x2000 ≤ c.toNat && c.toNat ≤ 0x200a) || c.toNat == 0x2028 ||
    c.toNat == 0x2029 || c.toNat == 0x202f || c.toNat == 0x205f || c.toNat == 0x3000

def dropEndWhile (p : Char → Bool) (cs : List Char) : List Char :=
  if cs.getLast?.any p then (cs.reverse.dropWhile p).reverse else cs

def trimChars (cs : List Char) : List Char :=
  dropEndWhile isBlank (cs.dropWhile isBlank)

end TypeLang.Text
