import TypeLang.Plan.TypeKey
import TypeLang.Wire.Cursor

/-!
# Codec errors
-/

namespace TypeLang

inductive CodecError where
  | wire (cause : Wire.ReadError)
  | unknownId (id : UInt32)
  | missingField (declaration field : String)
  /-- The value of a field is none of its declared type. -/
  | mismatch (field : String) (type : TypeExpr)
  /-- The value has to tell its own type and is of a kind that does not. -/
  | notSelfDescribing (field kind : String)
  /-- An object is of another type than the one that is declared. -/
  | otherType (field : String) (expected : TypeKey) (found : String)
  | payloadTooLong (field : String) (length : Nat)
  /-- A bare name stands for no constructor. -/
  | unknownType (name : String)
  | unresolvedVariable (name : String)
  /-- The declaration contains itself without a byte in between. -/
  | endless (declaration : String)
  deriving DecidableEq, Repr

def CodecError.message : CodecError → String
  | .wire cause => cause.message
  | .unknownId id => "unknown identifier 0x" ++ Text.hex8 id
  | .missingField declaration field =>
    "`" ++ declaration ++ "` is missing field `" ++ field ++ "`"
  | .mismatch field type => "field `" ++ field ++ "` expects a value of type `" ++ type.text ++ "`"
  | .notSelfDescribing field kind =>
    "field `" ++ field ++ "` expects a value of type `a self-describing value, not " ++ kind ++ "`"
  | .otherType field expected found =>
    "field `" ++ field ++ "` expects a `" ++ expected.text ++ "`, found `" ++ found ++ "`"
  | .payloadTooLong field length =>
    "field `" ++ field ++ "` holds " ++ toString length
      ++ " bytes, more than a length header can describe"
  | .unknownType name => "unknown bare type `" ++ name ++ "`"
  | .unresolvedVariable name =>
    "value for type variable `" ++ name ++ "` must be self-describing"
  | .endless declaration => "`" ++ declaration ++ "` contains itself"

end TypeLang
