import TypeLang.Pattern
import TypeLang.Pattern.Growth

/-!
# The size of a pattern

There is a limit for the memory that the automaton of a pattern may take. Two automata are built,
one for each direction of reading, and each has to keep the limit. A repetition stands for as many
copies as it has bounds, so that a short pattern can be too large.
-/

namespace TypeLang

/-! ## Words -/

/-- Some words, cut at each empty one. -/
def segments : List (List Nat) → List (List (List Nat))
  | [] => [[]]
  | [] :: words => [] :: segments words
  | word :: words =>
    match segments words with
    | segment :: rest => (word :: segment) :: rest
    | [] => [[word]]

/-- Adds the tree that reads words of at most `length` bytes, without the last state. A node has a
branch for each segment and one for each word that ends there. -/
def Growth.tree : (length : Nat) → List (List Nat) → Growth → Growth
  | 0, _, g => g
  | length + 1, words, g =>
    let cut := segments words
    let full := cut.filter (!·.isEmpty)
    full.foldl (fun g segment =>
      let heads := (segment.filterMap List.head?).eraseDups
      heads.foldl (fun g head =>
        let tails := segment.filterMap fun w => if w.head? = some head then some w.tail else none
        if tails.all List.isEmpty then g else tree length tails g)
        (if heads.length = 1 then g.plain 1 else g.reading heads.length))
      (g.fork (full.length + (cut.length - 1)))

def Growth.words (g : Growth) (direction : Direction) (words : List (List Nat)) : Growth :=
  let length := (words.map List.length).foldl max 0
  let read :=
    match direction with
    | .forward => words
    | .backward => words.map List.reverse
  (Growth.tree length read g).plain 1

/-! ## What the parts of a pattern show -/

namespace Pattern

/-- The fewest characters of a text in the language; none if a set in the pattern is empty. -/
def leastLength? : Pattern → Option Nat
  | empty => some 0
  | chars set => if set.ranges.isEmpty then none else some 1
  | look _ => some 0
  | group inner => inner.leastLength?
  | seq a b => do return (← a.leastLength?) + (← b.leastLength?)
  | either a b => do return min (← a.leastLength?) (← b.leastLength?)
  | repeated inner least _ => inner.leastLength?.map (· * least)

/-- A condition that holds in front of every part in the language. -/
def beginsWith (condition : Look) : Pattern → Bool
  | look other => other = condition
  | group inner => inner.beginsWith condition
  | seq a b => a.beginsWith condition || a.isEmptyOnly && b.beginsWith condition
  | either a b => a.beginsWith condition && b.beginsWith condition
  | repeated inner least _ => least != 0 && inner.beginsWith condition
  | _ => false

/-- A condition that holds behind every part in the language. -/
def endsWith (condition : Look) : Pattern → Bool
  | look other => other = condition
  | group inner => inner.endsWith condition
  | seq a b => b.endsWith condition || b.isEmptyOnly && a.endsWith condition
  | either a b => a.endsWith condition && b.endsWith condition
  | repeated inner least _ => least != 0 && inner.endsWith condition
  | _ => false

def alternatives : Pattern → Nat
  | either a b => a.alternatives + b.alternatives
  | _ => 1

def word? : Pattern → Option (List Nat)
  | chars set => set.only?.map utf8Bytes
  | seq a b => do return (← a.word?) ++ (← b.word?)
  | _ => none

def words? : Pattern → Option (List (List Nat))
  | either a b => do return (← a.words?) ++ (← b.words?)
  | p => p.word?.map fun word => [word]

/-! ## Building -/

def maxBytes : Nat := 10 * 1024 * 1024

/-- Adds copies one after the other, until the limit is passed. -/
def copies (once : Growth → Growth) : (count : Nat) → Growth → Growth
  | 0, g => g
  | count + 1, g => if maxBytes < g.bytes then g else copies once count (once g)

/-- Adds what joins an alternative to those in front of it. The second one brings the state in front
of all and the one behind all. -/
def join (before : Nat) (g : Growth) : Growth :=
  match before with
  | 0 => g
  | 1 => (g.fork 2).plain 1
  | _ => g.branches 1

/-- Adds a pattern of which `parts` adds the alternatives. Several words are read by a tree. -/
def whole (p : Pattern) (direction : Direction) (parts : Growth → Growth) (g : Growth) : Growth :=
  if p.alternatives ≤ 1 then parts g
  else
    match p.words? with
    | some words => g.words direction words
    | none => parts g

def grow (direction : Direction) : Pattern → (before : Nat) → Growth → Growth
  | empty, before, g => join before (g.plain 1)
  | chars set, before, g => join before (set.grow direction g)
  | look _, before, g => join before (g.plain 1)
  | group inner, before, g =>
    let inside := inner.whole direction (inner.grow direction 0)
    join before <|
      match direction with
      | .forward => (inside (g.plain 1)).plain 1
      | .backward => inside g
  | seq a b, before, g =>
    let first := a.whole direction (a.grow direction 0)
    let second := b.whole direction (b.grow direction 0)
    join before <|
      match direction with
      | .forward => second (first g)
      | .backward => first (second g)
  | either a b, before, g => b.grow direction (before + a.alternatives) (a.grow direction before g)
  | repeated inner least none, before, g =>
    let once := inner.whole direction (inner.grow direction 0)
    join before <|
      if least ≠ 0 then (copies once least g).fork 2
      else if inner.leastLength?.any (0 < ·) then once (g.fork 2)
      else (((once g).fork 2).fork 2).plain 1
  | repeated inner least (some most), before, g =>
    let once := inner.whole direction (inner.grow direction 0)
    join before <|
      if least = most then copies once least g
      else if least = 0 ∧ most = 1 then (once (g.fork 2)).plain 1
      else
        let required := if least = 0 then g.plain 1 else copies once least g
        copies (fun g => once (g.fork 2)) (most - least) (required.plain 1)

/-- The automaton of a pattern. It begins with states that pass over other text, unless there can be
none, and it ends with one that accepts. Forward, two more note where the part starts and stops. -/
def automaton (p : Pattern) (direction : Direction) : Growth :=
  let nothing : Growth := ⟨0, 0⟩
  let whole := p.whole direction (p.grow direction 0)
  let passing := ((nothing.fork 2).plain 1).reading 1
  match direction with
  | .forward =>
    let g := if p.beginsWith .start then nothing.plain 1 else passing
    (whole (g.plain 1)).plain 2
  | .backward =>
    let g := if p.endsWith .stop then nothing.plain 1 else passing
    (whole g).plain 1

def isWithinLimit (p : Pattern) : Bool :=
  (p.automaton .forward).bytes ≤ maxBytes && (p.automaton .backward).bytes ≤ maxBytes

end Pattern

end TypeLang
