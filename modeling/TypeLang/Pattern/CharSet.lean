/-!
# Sets of characters

A `CharSet` is a list of ranges of code points, in order and with a gap between any two. The set
operations keep that form. The surrogates are code points of no character, and no set has any.
-/

namespace TypeLang

structure CharSet where
  /-- The first and the last code point of each range. -/
  ranges : List (Nat × Nat)
  deriving Repr, BEq, DecidableEq, Inhabited

namespace CharSet

def lastPoint : Nat := 0x10ffff

def withoutSurrogates (first last : Nat) : List (Nat × Nat) :=
  if last < 0xd800 ∨ 0xdfff < first then [(first, last)]
  else
    (if first < 0xd800 then [(first, 0xd7ff)] else []) ++
      (if 0xdfff < last then [(0xe000, last)] else [])

def insertRange (first last : Nat) : List (Nat × Nat) → List (Nat × Nat)
  | [] => [(first, last)]
  | (a, b) :: rest =>
    if last + 1 < a then (first, last) :: (a, b) :: rest
    else if b + 1 < first then (a, b) :: insertRange first last rest
    else insertRange (min a first) (max b last) rest

def gaps (start : Nat) : List (Nat × Nat) → List (Nat × Nat)
  | [] => if start ≤ lastPoint then [(start, lastPoint)] else []
  | (a, b) :: rest => if start < a then (start, a - 1) :: gaps (b + 1) rest else gaps (b + 1) rest

def empty : CharSet := ⟨[]⟩

def span (first last : Nat) : CharSet := ⟨withoutSurrogates first last⟩

def full : CharSet := span 0 lastPoint

def ascii : CharSet := span 0 0x7f

def range (first last : Char) : CharSet := span first.toNat last.toNat

def single (c : Char) : CharSet := range c c

def union (a b : CharSet) : CharSet :=
  ⟨b.ranges.foldr (fun r ranges => insertRange r.1 r.2 ranges) a.ranges⟩

def complement (a : CharSet) : CharSet :=
  ⟨(gaps 0 a.ranges).flatMap fun r => withoutSurrogates r.1 r.2⟩

def inter (a b : CharSet) : CharSet := complement (union (complement a) (complement b))

def diff (a b : CharSet) : CharSet := inter a (complement b)

def symmDiff (a b : CharSet) : CharSet := union (diff a b) (diff b a)

def contains (a : CharSet) (c : Char) : Bool :=
  a.ranges.any fun r => r.1 ≤ c.toNat && c.toNat ≤ r.2

def only? (a : CharSet) : Option Nat :=
  match a.ranges with
  | [(first, last)] => if first = last then some first else none
  | _ => none

def isAscii (a : CharSet) : Bool := a.ranges.all fun r => r.2 < 0x80

end CharSet

end TypeLang
