/-!
# Declaration categories
-/

namespace TypeLang

/-- A declaration is a data constructor or a method that can be called. -/
inductive Category where
  | constructor
  | method
  deriving DecidableEq, Repr, Inhabited

/-- The section of a schema text that holds the declarations of a category. -/
def Category.sectionName : Category → String
  | .constructor => "types"
  | .method => "functions"

def Category.ofSectionName? (name : String) : Option Category :=
  if name = "types" then some .constructor
  else if name = "functions" then some .method
  else none

theorem Category.ofSectionName?_sectionName (c : Category) :
    ofSectionName? c.sectionName = some c := by
  cases c <;> rfl

def Category.label : Category → String
  | .constructor => "constructor"
  | .method => "method"

end TypeLang
