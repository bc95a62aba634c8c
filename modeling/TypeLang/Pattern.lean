import TypeLang.Pattern.CharSet

/-!
# Patterns

Regular expressions over names, and the functions that build them so that sets of characters stay
together and nothing is repeated in vain.
-/

namespace TypeLang

/-- A condition on a position in a text. -/
inductive Look where
  | start
  | stop
  /-- The start of the text or of a line in it. -/
  | lineStart
  /-- The end of the text or of a line in it. -/
  | lineStop
  /-- Between a word character and one that is none, or an end of the text. -/
  | wordBorder
  | noWordBorder
  | wordStart
  | wordStop
  /-- No word character in front. -/
  | wordStartHalf
  /-- No word character behind. -/
  | wordStopHalf
  deriving Repr, DecidableEq

def Look.holdsAt (text : Array Char) (i : Nat) (look : Look) : Bool :=
  let isWord (c : Char) := c.isAlphanum || c == '_'
  let before := 0 < i && (text[i - 1]?).any isWord
  let behind := (text[i]?).any isWord
  match look with
  | start => i == 0
  | stop => i == text.size
  | lineStart => i == 0 || text[i - 1]? == some '\n'
  | lineStop => i == text.size || text[i]? == some '\n'
  | wordBorder => before != behind
  | noWordBorder => before == behind
  | wordStart => !before && behind
  | wordStop => before && !behind
  | wordStartHalf => !before
  | wordStopHalf => !behind

inductive Pattern where
  | empty
  | chars (set : CharSet)
  | look (condition : Look)
  /-- A group whose part of the text can be asked for. -/
  | group (inner : Pattern)
  | seq (first second : Pattern)
  | either (a b : Pattern)
  /-- At least `least` times, and at most `most` times if that is given. -/
  | repeated (inner : Pattern) (least : Nat) (most : Option Nat)
  deriving Repr, BEq, Inhabited

namespace Pattern

def isEmptyOnly : Pattern → Bool
  | empty => true
  | look _ => true
  | chars _ => false
  | group inner => inner.isEmptyOnly
  | seq a b => a.isEmptyOnly && b.isEmptyOnly
  | either a b => a.isEmptyOnly && b.isEmptyOnly
  | repeated inner _ _ => inner.isEmptyOnly

/-! ## Rows -/

def items : Pattern → List Pattern
  | empty => []
  | seq a b => a.items ++ b.items
  | p => [p]

/-- Some patterns as one, none of which is a row itself. -/
def row : List Pattern → Pattern
  | [] => empty
  | [p] => p
  | p :: ps => seq p (row ps)

def sequence (ps : List Pattern) : Pattern := row (ps.flatMap items)

def isWord : Pattern → Bool
  | chars set => set.only?.isSome
  | seq a b => a.isWord && b.isWord
  | _ => false

/-- Puts a pattern in front of some parts. Words that meet are one part. -/
def consPart (p : Pattern) : List Pattern → List Pattern
  | [] => [p]
  | part :: parts => if p.isWord && part.isWord then seq p part :: parts else p :: part :: parts

/-- The parts of a row. Single characters next to each other are one part. -/
def parts (p : Pattern) : List Pattern := p.items.foldr consPart []

/-! ## Alternatives -/

def set? : Pattern → Option CharSet
  | chars set => some set
  | _ => none

/-- The set that alternatives are together. Either all are single characters or none is. -/
def unionSet? (alternatives : List Pattern) : Option CharSet := do
  let sets ← alternatives.mapM set?
  let words := alternatives.filter isWord
  if words.isEmpty ∨ words.length = alternatives.length then some (sets.foldl .union .empty)
  else none

/-- The alternatives as a pattern of their own, the first in front. -/
def chain : List Pattern → Pattern
  | [] => chars .empty
  | [p] => p
  | p :: ps => either p (chain ps)

/-- One of the patterns. Sets of characters make a set again. -/
def choice (alternatives : List Pattern) : Pattern :=
  match unionSet? alternatives with
  | some set => chars set
  | none => chain alternatives

def hasGroup : Pattern → Bool
  | group _ => true
  | seq a b => a.hasGroup || b.hasGroup
  | either a b => a.hasGroup || b.hasGroup
  | repeated inner _ _ => inner.hasGroup
  | _ => false

/-- The parts that two rows begin with. No two groups are the same. -/
def sharedParts : List Pattern → List Pattern → List Pattern
  | p :: ps, q :: qs => if p == q && !p.hasGroup then p :: sharedParts ps qs else []
  | _, _ => []

/-- The parts that all rows begin with, of which each has two parts at least. -/
def commonParts : List (List Pattern) → List Pattern
  | [] => []
  | parts :: others =>
    if (parts :: others).any (·.length < 2) then [] else others.foldl sharedParts parts

/-- One of the patterns. What all of them begin with is read once. -/
def oneOf (alternatives : List Pattern) : Pattern :=
  let rows := alternatives.map parts
  let common := commonParts rows
  if common.isEmpty then choice alternatives
  else sequence (common ++ [choice (rows.map fun parts => sequence (parts.drop common.length))])

/-! ## Repetitions -/

/-- A repetition. Repeating the empty text adds nothing to it. -/
def times (inner : Pattern) (least : Nat) (most : Option Nat) : Pattern :=
  let (least, most) :=
    if inner.isEmptyOnly then (min least 1, some (min (most.getD 1) 1)) else (least, most)
  match least, most with
  | 0, some 0 => empty
  | 1, some 1 => inner
  | _, _ => repeated inner least most

end Pattern

end TypeLang
