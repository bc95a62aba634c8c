import TypeLang.Text.Number

/-!
# Plan errors
-/

namespace TypeLang

inductive PlanError where
  /-- Two declarations, or a declaration and a reserved name, claim one identifier. -/
  | duplicateId (id : UInt32) (first second : String)
  /-- What is left of the names of an enum's members is empty or repeated. -/
  | enumLabels (type : String) (siblings : List String)
  | emptyType (type : String)
  /-- A gated parameter names a flags word that is not declared before it. -/
  | missingFlagsWord (declaration : String) (word : String)
  | capabilityPattern (pattern : String)
  deriving DecidableEq, Repr

def PlanError.message : PlanError → String
  | .duplicateId id first second =>
    "identifier 0x" ++ Text.hex8 id ++ " is declared by both `" ++ first ++ "` and `" ++ second ++ "`"
  | .enumLabels type siblings =>
    "cannot derive distinct enum labels for `" ++ type ++ "` from ["
      ++ ", ".intercalate (siblings.map fun name => "\"" ++ name ++ "\"") ++ "]"
  | .emptyType type => "type `" ++ type ++ "` has no constructors"
  | .missingFlagsWord declaration word =>
    "`" ++ declaration ++ "` refers to undeclared flags word `" ++ word ++ "`"
  | .capabilityPattern pattern => "invalid capability pattern `" ++ pattern ++ "`"

end TypeLang
