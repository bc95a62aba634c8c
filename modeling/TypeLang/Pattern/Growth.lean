import Std.Data.HashMap
import TypeLang.Pattern.Encoding

/-!
# Building automata

How much memory the automaton of a pattern takes depends on how it is built. A `Growth` goes through
the steps and keeps only the measures of what has been built.

The states for a set of characters are shared: a state that reads the same as one before is not
built again. What has been built is kept in slots, and the slot of a state follows from what it
reads. The last state takes the slot, so that one that has lost its slot is built once more.
-/

namespace TypeLang

inductive Direction where
  | forward
  | backward
  deriving Repr, DecidableEq

structure Growth where
  /-- The number of states, which is the number of the next one as well. -/
  states : Nat
  /-- The bytes of what leads from state to state. -/
  linkBytes : Nat
  deriving Repr, DecidableEq

namespace Growth

def stateBytes : Nat := 32

/-- The bytes for a range of bytes in a state that reads one of several. -/
def rangeBytes : Nat := 8

def branchBytes : Nat := 4

def bytes (g : Growth) : Nat := stateBytes * g.states + g.linkBytes

/-- Adds states that read one range of bytes each, or nothing and have one continuation. -/
def plain (g : Growth) (count : Nat) : Growth := { g with states := g.states + count }

def reading (g : Growth) (ranges : Nat) : Growth :=
  ⟨g.states + 1, g.linkBytes + rangeBytes * ranges⟩

def branches (g : Growth) (count : Nat) : Growth :=
  { g with linkBytes := g.linkBytes + branchBytes * count }

def fork (g : Growth) (count : Nat) : Growth := (g.plain 1).branches count

end Growth

/-- An automaton in which the states of a set of characters are being built. -/
structure SharedGrowth where
  growth : Growth
  /-- What the state in a slot reads, and its number. -/
  slots : Std.HashMap Nat (List Nat × Nat)

namespace SharedGrowth

/-- The slot of a state among `count`: a checksum of what it reads, each number being mixed in by an
exclusive or and a product in 64 bits. -/
def slot (count : Nat) (reads : List Nat) : Nat :=
  let sum := reads.foldl (fun h n => (h ^^^ n.toUInt64) * 1099511628211) 14695981039346656037
  sum.toNat % count

/-- The number of the state that reads what is given, which is built by `add` unless its slot holds
it. -/
def state (b : SharedGrowth) (count : Nat) (reads : List Nat) (add : Growth → Growth) :
    Nat × SharedGrowth :=
  let i := slot count reads
  match (b.slots[i]?).filter fun held => held.1 == reads with
  | some (_, number) => (number, b)
  | none =>
    let number := b.growth.states
    (number, ⟨add b.growth, b.slots.insert i (reads, number)⟩)

/-- The states that read byte sequences forward, from the last one to the first. Sequences that
start alike have the beginning in common, and a state reads all that may come next. A state has one
of 10000 slots. -/
def forward (target : Nat) : (length : Nat) → List ByteSequence → SharedGrowth → Nat × SharedGrowth
  | 0, _, b => (target, b)
  | length + 1, sequences, b =>
    let groups := sequences.splitBy fun s t => s.head? == t.head?
    let (reads, b) := groups.foldl (fun (reads, b) group =>
      match group with
      | (r :: rest) :: _ =>
        let (next, b) :=
          if rest.isEmpty then (target, b) else forward target length (group.map List.tail) b
        (reads ++ [r.1, r.2, next], b)
      | _ => (reads, b)) (([] : List Nat), b)
    b.state 10000 reads (·.reading groups.length)

/-- The states that read a byte sequence backward, from the one that reads its first byte to the one
that reads its last. A state has one of 1000 slots. -/
def backward (target : Nat) (b : SharedGrowth) (sequence : ByteSequence) : SharedGrowth :=
  let (_, b) := sequence.foldl (fun (next, b) r =>
    b.state 1000 [next, r.1, r.2] (·.plain 1)) (target, b)
  { b with growth := b.growth.branches 1 }

end SharedGrowth

def CharSet.grow (a : CharSet) (direction : Direction) (g : Growth) : Growth :=
  if let some n := a.only? then g.plain (utf8Bytes n).length
  else if a.isAscii then (g.plain 1).reading a.ranges.length
  else
    match direction with
    | .forward => (SharedGrowth.forward g.states 4 a.byteSequences ⟨g.plain 1, ∅⟩).2.growth
    | .backward =>
      (a.byteSequences.foldl (SharedGrowth.backward (g.states + 1)) ⟨g.plain 2, ∅⟩).growth

end TypeLang
