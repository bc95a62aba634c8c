import TypeLang.Pattern
import TypeLang.Pattern.Case
import TypeLang.Pattern.Property
import TypeLang.Text.Blank
import TypeLang.Text.Number

/-!
# The atoms of patterns

Characters, escapes and the flags that change how they are read. Each reader gives what it read and
the rest of the text.
-/

namespace TypeLang.Pattern

structure Flags where
  ignoreCase : Bool
  /-- Blanks and comments, which start with `#`, are skipped. -/
  spaced : Bool
  /-- Sets hold characters. Otherwise they hold bytes, of which only those of ASCII are allowed. -/
  unicode : Bool
  /-- `^` and `$` hold at each line. -/
  lines : Bool
  /-- A dot is any character, also one that ends a line. -/
  dotAll : Bool
  /-- A carriage return ends a line as well. -/
  carriageReturns : Bool
  deriving Repr, DecidableEq

namespace Flags

def default : Flags := ⟨false, false, true, false, false, false⟩

/-- A set, with or without regard to case. -/
def fold (flags : Flags) (set : CharSet) : CharSet :=
  if !flags.ignoreCase then set else if flags.unicode then set.anyCase else set.anyAsciiCase

/-- A set or its complement, which holds more than ASCII. -/
def negate? (flags : Flags) (negated : Bool) (set : CharSet) : Option CharSet :=
  if !negated then some set else if flags.unicode then some set.complement else none

end Flags

def Flags.dot? (flags : Flags) : Option CharSet :=
  let newline := CharSet.single '\n'
  let ends :=
    if flags.dotAll then CharSet.empty
    else if flags.carriageReturns then newline.union (.single '\r')
    else newline
  if flags.unicode then some ends.complement else none

def skipComments (inComment : Bool) : List Char → List Char
  | [] => []
  | c :: cs =>
    if inComment then skipComments (c != '\n') cs
    else if Text.isBlank c then skipComments false cs
    else if c = '#' then skipComments true cs
    else c :: cs

def skip (flags : Flags) (cs : List Char) : List Char :=
  if flags.spaced then skipComments false cs else cs

inductive Atom where
  /-- A character; `asByte` if it is written by a number of two digits. -/
  | char (c : Char) (asByte : Bool)
  | set (s : CharSet)
  | look (condition : Look)

/-! ## Escapes -/

def ofHex? (digits : List Char) : Option Char :=
  ((Text.digits? 16 digits).filter fun n => n < 0xd800 || 0xdfff < n && n < 0x110000).map Char.ofNat

def hexDigits? (flags : Flags) : (count : Nat) → List Char → Option (List Char × List Char)
  | 0, cs => some ([], cs)
  | count + 1, cs =>
    match skip flags cs with
    | c :: rest => (hexDigits? flags count rest).map fun (digits, rest) => (c :: digits, rest)
    | [] => none

/-- Reads the text up to a closing brace, without what the flags say to skip. -/
def braced? (flags : Flags) (inComment : Bool) : List Char → Option (List Char × List Char)
  | [] => none
  | c :: cs =>
    if inComment then braced? flags (c != '\n') cs
    else if flags.spaced ∧ Text.isBlank c then braced? flags false cs
    else if flags.spaced ∧ c = '#' then braced? flags true cs
    else if c = '\x7d' then some ([], cs)
    else (braced? flags false cs).map fun (inner, rest) => (c :: inner, rest)

/-- Reads the code point of a character, either a number of digits or in braces. -/
def codePoint? (flags : Flags) (digits : Nat) (cs : List Char) : Option (Atom × List Char) := do
  match skip flags cs with
  | '\x7b' :: rest =>
    let (inner, rest) ← braced? flags false rest
    return (.char (← ofHex? inner) false, rest)
  | cs =>
    let (inner, rest) ← hexDigits? flags digits cs
    return (.char (← ofHex? inner) (digits = 2), rest)

def propertySet? (flags : Flags) (negated : Bool) (cs : List Char) :
    Option (Atom × List Char) := do
  if !flags.unicode then none
  let (name, rest) ← match skip flags cs with
    | '\x7b' :: rest => braced? flags false rest
    | '\\' :: _ => none
    | c :: rest => some ([c], rest)
    | [] => none
  let (set, isOther) ← CharSet.ofProperty? name
  let set ← flags.negate? (negated != isOther) (flags.fold set)
  return (.set set, rest)

/-- The tables of the class that an escaped letter stands for, and whether its complement is meant.
-/
def escapeClass? : Char → Option (List String × Bool)
  | 'd' => some ([Property.decimalNumbers], false)
  | 'D' => some ([Property.decimalNumbers], true)
  | 'w' => some (Property.wordCharacters, false)
  | 'W' => some (Property.wordCharacters, true)
  | 's' => some ([Property.whiteSpace], false)
  | 'S' => some ([Property.whiteSpace], true)
  | _ => none

def Flags.ofTables (flags : Flags) (tables : List String) : CharSet :=
  let set := CharSet.ofTables tables
  if flags.unicode then set else set.inter .ascii

/-- The character that an escaped character stands for: a control character, or itself if it is in
ASCII and neither a letter, a digit nor an angle bracket. -/
def escapeChar? (c : Char) : Option Char :=
  match c with
  | 'a' => some '\x07'
  | 'f' => some '\x0c'
  | 't' => some '\t'
  | 'n' => some '\n'
  | 'r' => some '\r'
  | 'v' => some '\x0b'
  | '<' => none
  | '>' => none
  | _ => if c.toNat < 0x80 ∧ !c.isAlphanum then some c else none

def escapeLook? : Char → Option Look
  | 'A' => some .start
  | 'z' => some .stop
  | 'b' => some .wordBorder
  | 'B' => some .noWordBorder
  | '<' => some .wordStart
  | '>' => some .wordStop
  | _ => none

def namedLook? (name : String) : Option Look :=
  match name with
  | "start" => some .wordStart
  | "end" => some .wordStop
  | "start-half" => some .wordStartHalf
  | "end-half" => some .wordStopHalf
  | _ => none

/-- Reads the name of a condition behind `\b`. A brace in front of anything but a letter or `-` is
for a repetition. -/
def wordLook? (flags : Flags) (cs : List Char) : Option (Look × List Char) :=
  match cs with
  | '\x7b' :: rest =>
    match skip flags rest with
    | [] => none
    | c :: more =>
      if c.isAlpha ∨ c = '-' then do
        let (name, rest) ← braced? flags false (c :: more)
        return (← namedLook? (String.ofList name), rest)
      else some (.wordBorder, cs)
  | _ => some (.wordBorder, cs)

def escape? (flags : Flags) : List Char → Option (Atom × List Char)
  | [] => none
  | 'x' :: rest => codePoint? flags 2 rest
  | 'u' :: rest => codePoint? flags 4 rest
  | 'U' :: rest => codePoint? flags 8 rest
  | 'p' :: rest => propertySet? flags false rest
  | 'P' :: rest => propertySet? flags true rest
  | 'b' :: rest => (wordLook? flags rest).map fun (condition, rest) => (.look condition, rest)
  | e :: rest =>
    match escapeClass? e, escapeLook? e with
    | some (tables, negated), _ =>
      (flags.negate? negated (flags.ofTables tables)).map fun s => (.set s, rest)
    | none, some condition => some (.look condition, rest)
    | none, none => (escapeChar? e).map fun c => (.char c false, rest)

end TypeLang.Pattern
