import TypeLang.Pattern

/-!
# Marked patterns

Matching by marks. While a text is read, a mark stands in the pattern behind each character that may
have been the last one, so that one pattern with marks keeps all the ways to match what has been
read. Reading a character moves the marks; `Marked.step` does so by recursion on the pattern. A
match has been found as soon as a mark can pass the end of the pattern.

Marks are sparse: most of a pattern is `idle` and is looked at only when a mark comes to its start.
-/

namespace TypeLang

inductive Marked where
  /-- A pattern without marks. -/
  | idle (p : Pattern)
  /-- A character of the set with a mark behind it. -/
  | just (set : CharSet)
  | seq (first second : Marked)
  | either (a b : Marked)
  /-- Any number of times. -/
  | loop (inner : Marked)
  deriving Repr, Inhabited

namespace Pattern

/-- The empty part at a position, where some conditions hold, is in the language. -/
def isEmptyAt (holds : Look → Bool) : Pattern → Bool
  | empty => true
  | chars _ => false
  | look condition => holds condition
  | group inner => inner.isEmptyAt holds
  | seq a b => a.isEmptyAt holds && b.isEmptyAt holds
  | either a b => a.isEmptyAt holds || b.isEmptyAt holds
  | repeated inner least _ => least = 0 || inner.isEmptyAt holds

/-- A pattern with the same matches in texts of at most `length` characters, in which no repetition
has larger bounds than they need. Of more copies than characters some match the empty text, and one
of these does for all. -/
def clip (length : Nat) : Pattern → Pattern
  | group inner => inner.clip length
  | seq a b => seq (a.clip length) (b.clip length)
  | either a b => either (a.clip length) (b.clip length)
  | repeated inner least none => repeated (inner.clip length) (min least (length + 1)) none
  | repeated inner least (some most) =>
    let fewer := min least (length + 1)
    repeated (inner.clip length) fewer (some (fewer + min (most - least) length))
  | p => p

end Pattern

namespace Marked

def row (copy : Marked) : (copies : Nat) → (last : Marked) → Marked
  | 0, last => last
  | n + 1, last => seq copy (row copy n last)

def upTo (copy : Marked) : (copies : Nat) → Marked
  | 0 => idle .empty
  | n + 1 => either (idle .empty) (seq copy (upTo copy n))

/-- The marks behind `c`, read at the start of a pattern at a position where some conditions hold.
If a copy of a repetition can be passed without reading, all the copies start here. -/
def wake (holds : Look → Bool) (c : Char) : Pattern → Marked
  | .chars set => if set.contains c then just set else idle (.chars set)
  | .group inner => wake holds c inner
  | .seq a b => seq (wake holds c a) (if a.isEmptyAt holds then wake holds c b else idle b)
  | .either a b => either (wake holds c a) (wake holds c b)
  | .repeated inner least none =>
    let first := wake holds c inner
    if least = 0 then loop first
    else if inner.isEmptyAt holds then row first least (loop first)
    else seq first (idle (.repeated inner (least - 1) none))
  | .repeated inner least (some most) =>
    let first := wake holds c inner
    if inner.isEmptyAt holds then row first least (upTo first (most - least))
    else if most = 0 then idle .empty
    else
      let once := seq first (idle (.repeated inner (least - 1) (some (most - 1))))
      if least = 0 then either (idle .empty) once else once
  | p => idle p

/-- A mark can pass the end at a position where some conditions hold, where `entering` tells whether
there is one in front. -/
def passes (holds : Look → Bool) : (entering : Bool) → Marked → Bool
  | entering, idle p => entering && p.isEmptyAt holds
  | _, just _ => true
  | entering, seq a b => b.passes holds (a.passes holds entering)
  | entering, either a b => a.passes holds entering || b.passes holds entering
  | entering, loop inner => entering || inner.passes holds false

def step (holds : Look → Bool) (c : Char) : (entering : Bool) → Marked → Marked
  | entering, idle p => if entering then wake holds c p else idle p
  | entering, just set =>
    if entering && set.contains c then just set else idle (.chars set)
  | entering, seq a b => seq (a.step holds c entering) (b.step holds c (a.passes holds entering))
  | entering, either a b => either (a.step holds c entering) (b.step holds c entering)
  | entering, loop inner => loop (inner.step holds c (entering || inner.passes holds false))

/-- Reads a text from position `i` on until a mark passes the end. At each position a match may
start. -/
def findFrom (holds : Nat → Look → Bool) (m : Marked) (i : Nat) : List Char → Bool
  | [] => m.passes (holds i) true
  | c :: cs => m.passes (holds i) true || (m.step (holds i) c true).findFrom holds (i + 1) cs

end Marked

def Pattern.occursIn (p : Pattern) (text : String) : Bool :=
  let cs := text.toList
  (Marked.idle (p.clip cs.length)).findFrom (Look.holdsAt cs.toArray) 0 cs

end TypeLang
