import TypeLang.Text.Number

/-!
# Quoted characters

How a byte is shown in a message: the character of that code point in single quotes, with an
escape where the character would not show.
-/

namespace TypeLang.Text

private def shortHex (n : Nat) : List Char :=
  if n < 16 then hexDigits 1 n else hexDigits 2 n

/-- A code point below 256 as it is shown inside single quotes. The soft hyphen and the no-break
space are written as escapes, like control characters. -/
def escapeLatin1 (n : Nat) : List Char :=
  if n = 0 then ['\\', '0']
  else if n = 0x09 then ['\\', 't']
  else if n = 0x0a then ['\\', 'n']
  else if n = 0x0d then ['\\', 'r']
  else if n = 0x27 then ['\\', '\'']
  else if n = 0x5c then ['\\', '\\']
  else if n < 0x20 ∨ (0x7f ≤ n ∧ n ≤ 0xa0) ∨ n = 0xad then
    ['\\', 'u', '\x7b'] ++ shortHex n ++ ['\x7d']
  else [Char.ofNat n]

def quoteByte (b : UInt8) : String :=
  String.ofList ('\'' :: escapeLatin1 b.toNat ++ ['\''])

end TypeLang.Text
