import TypeLang.Category
import TypeLang.Text.Number
import TypeLang.TypeExpr

/-!
# Declarations

A declaration gives a name and a 32-bit identifier to a constructor or a method, with typed
parameters in wire order and a result type.
-/

namespace TypeLang

structure Parameter where
  name : String
  type : TypeExpr
  deriving DecidableEq, Repr, Inhabited

namespace Parameter

def text (p : Parameter) : String :=
  p.name ++ ":" ++ p.type.text

/-- The parameter is a flags word, whose value the presence of others makes. -/
def declaresWord (p : Parameter) : Bool :=
  p.type.erased.isFlagsWord

/-- Two sibling constructors declare the same field if name and type agree up to the flag. -/
def sameField (p q : Parameter) : Bool :=
  p.name == q.name && p.type.erased == q.type.erased

end Parameter

structure Declaration where
  category : Category
  id : UInt32
  name : QualifiedName
  params : List Parameter
  result : TypeExpr
  deriving DecidableEq, Repr, Inhabited

namespace Declaration

def fullName (d : Declaration) : String :=
  d.name.fullName

def typeVariables (d : Declaration) : List String :=
  (d.params.flatMap (·.type.freeVariables) ++ d.result.freeVariables).eraseDups

/-- How a schema writes the declaration, without the `;`. -/
def text (d : Declaration) : String :=
  " ".intercalate
    ((d.fullName ++ "#" ++ Text.hex8 d.id)
      :: d.typeVariables.map (fun v => "\x7b" ++ v ++ ":Type\x7d")
      ++ d.params.map Parameter.text
      ++ ["=", d.result.text])

end Declaration

end TypeLang
