import TypeLang.Name
import TypeLang.Primitive

/-!
# Type expressions
-/

namespace TypeLang

/-- A bit of a flags word, written `word.bit`. -/
structure Flag where
  word : String
  bit : Fin 32
  deriving DecidableEq, Repr, Inhabited

namespace Flag

/-- The value of the flags word in which only this bit is set. -/
def mask (f : Flag) : UInt32 :=
  1 <<< UInt32.ofNat f.bit.val

def text (f : Flag) : String :=
  f.word ++ "." ++ toString f.bit.val

end Flag

inductive TypeExpr where
  | primitive (kind : Primitive)
  /-- A boxed vector, `Vector<T>`, starts with the vector identifier; a bare one does not. -/
  | vector (inner : TypeExpr) (boxed : Bool)
  /-- `word.bit?T`: present only if the bit is set. -/
  | flag (flag : Flag) (inner : TypeExpr)
  /-- A type variable of a method. -/
  | var (name : String)
  /-- A declared type. A bare one stands for its only constructor, without an identifier. -/
  | named (name : QualifiedName) (bare : Bool)
  deriving DecidableEq, Repr, Inhabited

namespace TypeExpr

def erased : TypeExpr → TypeExpr
  | flag _ inner => inner
  | t => t

def flag? : TypeExpr → Option Flag
  | flag f _ => some f
  | _ => none

def isFlagsWord (t : TypeExpr) : Bool :=
  t = primitive .flags

def isTrueLiteral (t : TypeExpr) : Bool :=
  t.erased = primitive .trueLiteral

def names : TypeExpr → List QualifiedName
  | named name _ => [name]
  | vector inner _ => inner.names
  | flag _ inner => inner.names
  | primitive _ => []
  | var _ => []

/-- The type variables that occur, from left to right. -/
def freeVariables : TypeExpr → List String
  | var name => [name]
  | vector inner _ => inner.freeVariables
  | flag _ inner => inner.freeVariables
  | primitive _ => []
  | named _ _ => []

/-- How a schema writes the type. A bare type is marked unless its name shows it. -/
def text : TypeExpr → String
  | primitive p => p.keyword
  | vector inner boxed => (if boxed then "Vector<" else "vector<") ++ inner.text ++ ">"
  | flag f inner => f.text ++ "?" ++ inner.text
  | var name => "!" ++ name
  | named name bare => (if bare && !name.isLowercase then "%" else "") ++ name.fullName

end TypeExpr

end TypeLang
