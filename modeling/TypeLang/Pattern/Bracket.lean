import TypeLang.Pattern.Atom
import TypeLang.Text.Split

/-!
# Classes in brackets

A class lists characters, ranges, escapes, classes with a name such as `[:alpha:]` and further
classes in brackets. The operators `&&`, `--` and `~~` make the intersection, the difference and the
symmetric difference of what stands on their sides; they bind to the left and all alike.
-/

namespace TypeLang.Pattern

/-- Nothing in a pattern may be nested more deeply. -/
def maxHeight : Nat := 250

structure Members where
  set : CharSet
  /-- The number of items. -/
  count : Nat
  /-- How deeply the items are nested. -/
  height : Nat

namespace Members

def empty : Members := ⟨.empty, 0, 0⟩

def add (m : Members) (set : CharSet) (height : Nat) : Members :=
  ⟨m.set.union set, m.count + 1, max m.height height⟩

/-- The nesting of all items. Several items are a level of their own. -/
def total (m : Members) : Nat := if m.count ≤ 1 then m.height else m.height + 1

end Members

inductive SetOperator where
  | inter
  | diff
  | symmDiff
  deriving DecidableEq

def SetOperator.apply : SetOperator → CharSet → CharSet → CharSet
  | inter => .inter
  | diff => .diff
  | symmDiff => .symmDiff

def SetOperator.ofChars? : Char → Char → Option SetOperator
  | '&', '&' => some inter
  | '-', '-' => some diff
  | '~', '~' => some symmDiff
  | _, _ => none

structure ClassPart where
  set : CharSet
  height : Nat

/-- Joins the left side of an operator, if there is one, with its right side. -/
def joinSides (flags : Flags) (left : Option (SetOperator × ClassPart)) (right : Members) :
    ClassPart :=
  match left with
  | none => ⟨right.set, right.total⟩
  | some (op, part) =>
    ⟨op.apply (flags.fold part.set) (flags.fold right.set), max part.height right.total + 1⟩

/-! ## Items -/

def namedClass? (name : String) : Option CharSet :=
  let letters := CharSet.union (.range 'a' 'z') (.range 'A' 'Z')
  let digits := CharSet.range '0' '9'
  let signs := [CharSet.range '!' '/', .range ':' '@', .range '[' '\x60', .range '\x7b' '~']
  match name with
  | "alnum" => some (letters.union digits)
  | "alpha" => some letters
  | "ascii" => some (.range '\x00' '\x7f')
  | "blank" => some ((CharSet.single '\t').union (.single ' '))
  | "cntrl" => some ((CharSet.range '\x00' '\x1f').union (.single '\x7f'))
  | "digit" => some digits
  | "graph" => some (.range '!' '~')
  | "lower" => some (.range 'a' 'z')
  | "print" => some (.range ' ' '~')
  | "punct" => some (signs.foldl .union .empty)
  | "space" => some ((CharSet.range '\t' '\r').union (.single ' '))
  | "upper" => some (.range 'A' 'Z')
  | "word" => some ((letters.union digits).union (.single '_'))
  | "xdigit" => some ((digits.union (.range 'A' 'F')).union (.range 'a' 'f'))
  | _ => none

/-- Reads a class with a name behind its opening bracket. The result is none if there is no such
class here; a class that cannot be had in bytes is an error. -/
def named? (flags : Flags) (cs : List Char) : Option (Option CharSet × List Char) :=
  match cs with
  | ':' :: rest =>
    let (negated, rest) := match rest with
      | '^' :: rest => (true, rest)
      | _ => (false, rest)
    match Text.splitFirst ':' rest with
    | some (name, ']' :: rest) =>
      (namedClass? (String.ofList name)).map fun s => (flags.negate? negated (flags.fold s), rest)
    | _ => none
  | _ => none

def item? (flags : Flags) : List Char → Option (Atom × List Char)
  | [] => none
  | '\\' :: rest => escape? flags rest
  | c :: rest => some (.char c false, rest)

/-- A character that a class may hold: in bytes, only those of ASCII. -/
def member? (flags : Flags) : Atom → Option Char
  | .char c _ => if flags.unicode || c.toNat < 0x80 then some c else none
  | _ => none

/-- Reads an item or a range. A `-` makes a range unless `]` or another `-` follows. -/
def range? (flags : Flags) (cs : List Char) : Option (CharSet × List Char) := do
  let (first, rest) ← item? flags cs
  let alone : Option (CharSet × List Char) :=
    match first with
    | .set s => some (s, skip flags rest)
    | .look _ => none
    | .char _ _ => (member? flags first).map fun c => (.single c, skip flags rest)
  match skip flags rest with
  | '-' :: more =>
    let more := skip flags more
    if more.head? = some ']' ∨ more.head? = some '-' then alone
    else
      let (last, rest) ← item? flags more
      let a ← member? flags first
      let b ← member? flags last
      if a ≤ b then some (.range a b, rest) else none
  | _ => alone

/-! ## Classes -/

/-- The characters in front of the items that stand for themselves: any number of `-`, or else `]`.
-/
def front (flags : Flags) : (m : Members) → List Char → Members × List Char
  | m, '-' :: rest => dashes (m.add (.single '-') 0) rest
  | m, ']' :: rest => (m.add (.single ']') 0, rest)
  | m, cs => (m, cs)
where
  dashes (m : Members) : List Char → Members × List Char
    | [] => (m, [])
    | c :: rest =>
      if c = '-' then dashes (m.add (.single '-') 0) rest
      else if flags.spaced && Text.isBlank c then dashes m rest
      else (m, c :: rest)

mutual

def bracket? (flags : Flags) : (fuel nesting : Nat) → List Char → Option (ClassPart × List Char)
  | 0, _, _ => none
  | _, 0, _ => none
  | fuel + 1, nesting + 1, cs => do
    let (negated, cs) := match skip flags cs with
      | '^' :: rest => (true, skip flags rest)
      | cs => (false, cs)
    let (members, cs) := front flags .empty cs
    let (part, rest) ← members? flags fuel nesting none members cs
    let set ← flags.negate? negated (flags.fold part.set)
    return (⟨set, part.height + 1⟩, rest)

def members? (flags : Flags) : (fuel nesting : Nat) → (left : Option (SetOperator × ClassPart)) →
    (m : Members) → List Char → Option (ClassPart × List Char)
  | 0, _, _, _, _ => none
  | fuel + 1, nesting, left, m, cs =>
    match skip flags cs with
    | [] => none
    | ']' :: rest => some (joinSides flags left m, rest)
    | '[' :: rest =>
      match named? flags rest with
      | some (none, _) => none
      | some (some set, rest) => members? flags fuel nesting left (m.add set 0) rest
      | none =>
        match bracket? flags fuel nesting rest with
        | some (part, rest) => members? flags fuel nesting left (m.add part.set part.height) rest
        | none => none
    | c :: rest =>
      match rest.head?.bind (SetOperator.ofChars? c) with
      | some op => members? flags fuel nesting (some (op, joinSides flags left m)) .empty rest.tail
      | none =>
        match range? flags (c :: rest) with
        | some (set, rest) => members? flags fuel nesting left (m.add set 0) rest
        | none => none

end

def class? (flags : Flags) (cs : List Char) : Option (ClassPart × List Char) :=
  bracket? flags (2 * cs.length + 2) maxHeight cs

end TypeLang.Pattern
