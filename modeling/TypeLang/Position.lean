/-!
# Positions in a text

Where a byte stands. Offsets count bytes from 0, lines and columns from 1; a column counts bytes,
not characters.
-/

namespace TypeLang

structure Position where
  offset : Nat
  line : Nat
  column : Nat
  deriving DecidableEq, Repr, Inhabited

namespace Position

def start : Position := ⟨0, 1, 1⟩

def after (p : Position) (b : UInt8) : Position :=
  if b = 0x0a then ⟨p.offset + 1, p.line + 1, 1⟩ else ⟨p.offset + 1, p.line, p.column + 1⟩

/-- The position `n` bytes further on the same line. -/
def skip (p : Position) (n : Nat) : Position :=
  ⟨p.offset + n, p.line, p.column + n⟩

def afterAll (p : Position) (bytes : List UInt8) : Position :=
  bytes.foldl after p

def describe (p : Position) : String :=
  s!"line {p.line}, column {p.column}, offset {p.offset}"

end Position

end TypeLang
