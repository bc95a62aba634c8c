import TypeLang.Pattern.Bracket
import TypeLang.Pattern.Size

/-!
# Reading patterns

`Pattern.parse?` reads the notation of regular expressions. The text is a row of pieces: atoms,
repetitions, bars, parentheses and flags. A `Draft` holds what the pieces so far have built, with
one level for each open group. A pattern is refused if it is nested too deeply or too large.
-/

namespace TypeLang.Pattern

/-! ## Flags and groups -/

/-- A flag that a letter switches on or off. The last one has no effect on whether a text matches.
-/
def Flags.switch? (flags : Flags) (on : Bool) : Char → Option Flags
  | 'i' => some { flags with ignoreCase := on }
  | 'x' => some { flags with spaced := on }
  | 'u' => some { flags with unicode := on }
  | 'm' => some { flags with lines := on }
  | 's' => some { flags with dotAll := on }
  | 'R' => some { flags with carriageReturns := on }
  | 'U' => some flags
  | _ => none

/-- Reads letters of flags up to `)` or `:`, which is the second result. Each letter stands once;
those behind the one `-` are switched off, and one at least has to follow it. -/
def flags? (seen : List Char) (flags : Flags) : List Char → Option ((Flags × Char) × List Char)
  | [] => none
  | c :: rest =>
    if c = ':' ∨ c = ')' then
      if seen.head? = some '-' ∨ (seen = [] ∧ c = ')') then none else some ((flags, c), rest)
    else if seen.contains c then none
    else if c = '-' then flags? ('-' :: seen) flags rest
    else (flags.switch? (!seen.contains '-') c).bind fun flags => flags? (c :: seen) flags rest

def isIn (tables : List String) (c : Char) : Bool := (CharSet.ofTables tables).contains c

def isLetter (c : Char) : Bool :=
  if c.toNat < 0x80 then c.isAlpha else isIn Property.alphabetic c

def isNumber (c : Char) : Bool :=
  if c.toNat < 0x80 then c.isDigit else isIn Property.numbers c

/-- May stand in the name of a group: a letter or `_`, and behind it numbers and some signs. -/
def isNameChar (isFirst : Bool) (c : Char) : Bool :=
  isLetter c || c == '_' || !isFirst && (isNumber c || c == '.' || c == '[' || c == ']')

def groupName? (cs : List Char) : Option (String × List Char) :=
  match Text.splitFirst '>' cs with
  | some (first :: more, rest) =>
    if isNameChar true first ∧ more.all (isNameChar false) then
      some (String.ofList (first :: more), rest)
    else none
  | _ => none

/-! ## Repetitions -/

def digits (flags : Flags) (inComment : Bool) : List Char → List Char × List Char
  | [] => ([], [])
  | c :: cs =>
    if inComment then digits flags (c != '\n') cs
    else if c.isDigit then
      let (more, rest) := digits flags false cs
      (c :: more, rest)
    else if flags.spaced ∧ Text.isBlank c then digits flags false cs
    else if flags.spaced ∧ c = '#' then digits flags true cs
    else ([], c :: cs)

def count? (flags : Flags) (cs : List Char) : Option (Nat × List Char) :=
  let (digits, rest) := digits flags false (cs.dropWhile Text.isBlank)
  (Text.natBelow? 10 UInt32.size digits).map fun n => (n, rest.dropWhile Text.isBlank)

def bounds? (flags : Flags) (cs : List Char) : Option ((Nat × Option Nat) × List Char) := do
  let (least, rest) ← count? flags (skip flags cs)
  match rest with
  | '\x7d' :: rest => return ((least, some least), rest)
  | ',' :: rest =>
    match skip flags rest with
    | '\x7d' :: rest => return ((least, none), rest)
    | rest => do
      let (most, rest) ← count? flags rest
      match rest with
      | '\x7d' :: rest => if least ≤ most then return ((least, some most), rest) else none
      | _ => none
  | _ => none

/-- The text behind a mark that makes a repetition prefer fewer copies. -/
def dropLazyMark : List Char → List Char
  | '?' :: rest => rest
  | cs => cs

/-! ## Pieces -/

inductive Piece where
  /-- A pattern with the nesting of its parts. -/
  | atom (p : Pattern) (height : Nat)
  | repetition (least : Nat) (most : Option Nat)
  | bar
  /-- The start of a group with flags of its own, a name, and whether its part can be asked for. -/
  | opening (flags : Flags) (name : Option String) (capturing : Bool)
  | closing
  /-- Flags for the rest of the group. -/
  | switch (flags : Flags)

def opening? (flags : Flags) (cs : List Char) : Option (Piece × List Char) := do
  match skip flags cs with
  | '?' :: 'P' :: '<' :: rest => named rest
  | '?' :: '<' :: rest => named rest
  | '?' :: rest =>
    let ((inner, mark), rest) ← flags? [] flags rest
    return (if mark = ')' then .switch inner else .opening inner none false, rest)
  | cs => return (.opening flags none true, cs)
where
  named (cs : List Char) : Option (Piece × List Char) :=
    (groupName? cs).map fun (name, rest) => (.opening flags (some name) true, rest)

def ofAtom? (flags : Flags) : Atom → Option Pattern
  | .char c asByte =>
    if asByte ∧ !flags.unicode ∧ 0x80 ≤ c.toNat then none
    else some (.chars (flags.fold (.single c)))
  | .set s => some (.chars s)
  | .look condition => some (.look condition)

def piece? (flags : Flags) : List Char → Option (Piece × List Char)
  | [] => none
  | '(' :: rest => opening? flags rest
  | ')' :: rest => some (.closing, rest)
  | '|' :: rest => some (.bar, rest)
  | '*' :: rest => some (.repetition 0 none, dropLazyMark rest)
  | '+' :: rest => some (.repetition 1 none, dropLazyMark rest)
  | '?' :: rest => some (.repetition 0 (some 1), dropLazyMark rest)
  | '\x7b' :: rest =>
    (bounds? flags rest).map fun ((least, most), rest) =>
      (.repetition least most, dropLazyMark (skip flags rest))
  | '[' :: rest =>
    (class? flags rest).map fun (part, rest) => (.atom (.chars part.set) part.height, rest)
  | '.' :: rest => flags.dot?.map fun set => (.atom (.chars set) 0, rest)
  | '^' :: rest => some (.atom (.look (if flags.lines then .lineStart else .start)) 0, rest)
  | '$' :: rest => some (.atom (.look (if flags.lines then .lineStop else .stop)) 0, rest)
  | c :: rest => do
    let (atom, rest) ← item? flags (c :: rest)
    return (.atom (← ofAtom? flags atom) 0, rest)

/-! ## Drafts -/

structure Item where
  pattern : Pattern
  height : Nat
  /-- Can be repeated, unlike a switch of flags. -/
  isRepeatable : Bool

def Item.ofPattern? (p : Pattern) (height : Nat) : Option Item :=
  if height ≤ maxHeight then some ⟨p, height, true⟩ else none

/-- An open group. Alternatives and items are in reverse order. -/
structure Level where
  /-- The flags in front of the group. -/
  outside : Flags
  capturing : Bool
  alternatives : List (Pattern × Nat)
  items : List Item

namespace Level

def opened (outside : Flags) (capturing : Bool) : Level := ⟨outside, capturing, [], []⟩

/-- The items in a row. Several items are a level of nesting. -/
def row (level : Level) : Pattern × Nat :=
  let height := (level.items.map Item.height).foldl max 0
  (.sequence (level.items.reverse.map Item.pattern),
    if level.items.length ≤ 1 then height else height + 1)

def endAlternative (level : Level) : Level :=
  { level with alternatives := level.row :: level.alternatives, items := [] }

/-- All that stands in the group. Alternatives are a level of nesting. -/
def content (level : Level) : Pattern × Nat :=
  match level.alternatives with
  | [] => level.row
  | others =>
    let last := level.row
    (.oneOf ((last :: others).reverse.map Prod.fst), (others.map Prod.snd).foldl max last.2 + 1)

end Level

structure Draft where
  flags : Flags
  /-- The names of groups. -/
  names : List String
  level : Level
  /-- The levels around it, the innermost first. -/
  outer : List Level

namespace Draft

def start : Draft := ⟨.default, [], .opened .default false, []⟩

def push (d : Draft) (item : Item) : Draft :=
  { d with level := { d.level with items := item :: d.level.items } }

def repeat? (d : Draft) (least : Nat) (most : Option Nat) : Option Draft :=
  match d.level.items with
  | [] => none
  | last :: items =>
    if last.isRepeatable then
      (Item.ofPattern? (.times last.pattern least most) (last.height + 1)).map fun item =>
        { d with level := { d.level with items := item :: items } }
    else none

/-- Starts a group. No two groups have the same name. -/
def open? (d : Draft) (flags : Flags) (name : Option String) (capturing : Bool) : Option Draft :=
  if name.any d.names.contains ∨ maxHeight ≤ d.outer.length then none
  else
    some {
      flags
      names := name.toList ++ d.names
      level := .opened d.flags capturing
      outer := d.level :: d.outer
    }

def close? (d : Draft) : Option Draft :=
  match d.outer with
  | [] => none
  | level :: outer =>
    let (p, height) := d.level.content
    (Item.ofPattern? (if d.level.capturing then .group p else p) (height + 1)).map fun item =>
      push { d with flags := d.level.outside, level, outer } item

def add? (d : Draft) : Piece → Option Draft
  | .atom p height => (Item.ofPattern? p height).map d.push
  | .repetition least most => d.repeat? least most
  | .bar => some { d with level := d.level.endAlternative }
  | .opening flags name capturing => d.open? flags name capturing
  | .closing => d.close?
  | .switch flags => some (push { d with flags } ⟨.empty, 0, false⟩)

/-- Reads pieces up to the end. Every piece takes a character at least. -/
def read? : (fuel : Nat) → Draft → List Char → Option Draft
  | 0, d, cs => if (skip d.flags cs).isEmpty then some d else none
  | fuel + 1, d, cs =>
    match skip d.flags cs with
    | [] => some d
    | c :: cs =>
      match piece? d.flags (c :: cs) with
      | some (piece, rest) =>
        match d.add? piece with
        | some d => read? fuel d rest
        | none => none
      | none => none

def finish? (d : Draft) : Option Pattern :=
  let (p, height) := d.level.content
  if d.outer.isEmpty ∧ height ≤ maxHeight then some p else none

end Draft

def parse? (text : String) : Option Pattern :=
  let cs := text.toList
  ((Draft.read? cs.length .start cs).bind Draft.finish?).filter isWithinLimit

end TypeLang.Pattern
