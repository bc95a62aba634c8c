/-!
# Primitive types
-/

namespace TypeLang

inductive Primitive where
  | int
  | long
  | double
  | bool
  /-- Takes no bytes; it tells something only behind a flag. -/
  | trueLiteral
  | bytes
  | int128
  | int256
  | string
  /-- Any boxed object, known by its identifier. -/
  | object
  | json
  /-- A 32-bit flags word, written `#`. -/
  | flags
  deriving DecidableEq, Repr, Inhabited

namespace Primitive

def all : List Primitive :=
  [int, long, double, bool, trueLiteral, bytes, int128, int256, string, object, json, flags]

def keyword : Primitive → String
  | int => "int"
  | long => "long"
  | double => "double"
  | bool => "Bool"
  | trueLiteral => "true"
  | bytes => "bytes"
  | int128 => "int128"
  | int256 => "int256"
  | string => "string"
  | object => "Object"
  | json => "JSONValue"
  | flags => "#"

def label : Primitive → String
  | bool => "bool"
  | object => "object"
  | json => "json"
  | flags => "flags"
  | p => p.keyword

def lowercase (cs : List Char) : List Char :=
  cs.map Char.toLower

/-- The type with this keyword in any ASCII case. -/
def ofKeyword? (text : List Char) : Option Primitive :=
  let word := lowercase text
  all.find? fun p => lowercase p.keyword.toList == word

/-- The number of bytes of every value, if they all have the same. -/
def fixedSize? : Primitive → Option Nat
  | int | bool | flags => some 4
  | long | double => some 8
  | int128 => some 16
  | int256 => some 32
  | trueLiteral => some 0
  | bytes | string | object | json => none

end Primitive

end TypeLang
