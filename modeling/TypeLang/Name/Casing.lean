import TypeLang.Name
import TypeLang.Text.Split

/-!
# Casing

Display names derived from schema names. Only ASCII letters have a case.
-/

namespace TypeLang.Casing

def lastSegment (cs : List Char) : List Char :=
  match Text.splitLast '.' cs with
  | some (_, last) => last
  | none => cs

/-- Where a character of a name stands, as far as its case depends on it. -/
inductive Place where
  /-- First of a word. -/
  | wordStart
  /-- Behind an uppercase letter of the name. -/
  | afterUpper
  | afterLower
  deriving DecidableEq, Repr

/-- Underscores start new words, each word starts with an uppercase letter, and only the first
letter of a run of uppercase letters stays uppercase. -/
def pascalFrom (place : Place) : List Char → List Char
  | [] => []
  | c :: cs =>
    if c = '_' then pascalFrom .wordStart cs
    else
      let next := if c.isUpper then .afterUpper else .afterLower
      match place with
      | .wordStart => c.toUpper :: pascalFrom next cs
      | .afterUpper => c.toLower :: pascalFrom next cs
      | .afterLower => c :: pascalFrom next cs

/-- `some_OK_name` and `ns.someOKName` become `SomeOkName`. -/
def pascal (name : String) : String :=
  String.ofList (pascalFrom .wordStart (lastSegment name.toList))

/-- `first_name` becomes `firstName`. -/
def camel (name : String) : String :=
  match (pascal name).toList with
  | [] => ""
  | c :: cs => String.ofList (c.toLower :: cs)

/-- Puts a separator, but not at the start and not behind another. -/
private def separate (done : List Char) : List Char :=
  match done with
  | [] => []
  | '_' :: _ => done
  | _ => '_' :: done

def screamFrom (afterSmall : Bool) (done : List Char) : List Char → List Char
  | [] => done.reverse
  | c :: cs =>
    if c = '.' ∨ c = '_' then screamFrom false (separate done) cs
    else
      let done := if c.isUpper && afterSmall then '_' :: done else done
      screamFrom (c.isLower || c.isDigit) (c.toUpper :: done) cs

theorem screamFrom_of_separator {c : Char} (hc : c = '.' ∨ c = '_') (afterSmall : Bool)
    (done cs : List Char) : screamFrom afterSmall done (c :: cs) =
      screamFrom false (if done = [] ∨ done.head? = some '_' then done else '_' :: done) cs := by
  rw [screamFrom, if_pos hc]
  congr 1
  unfold separate
  split
  · simp
  · simp
  · cases done <;> simp_all

theorem screamFrom_of_letter {c : Char} (hc : ¬(c = '.' ∨ c = '_')) (afterSmall : Bool)
    (done cs : List Char) : screamFrom afterSmall done (c :: cs) =
      screamFrom (c.isLower || c.isDigit)
        (c.toUpper :: if c.isUpper && afterSmall then '_' :: done else done) cs := by
  rw [screamFrom, if_neg hc]

/-- `photoSizeEmpty` becomes `PHOTO_SIZE_EMPTY`. -/
def screaming (label : String) : String :=
  String.ofList (screamFrom false [] label.toList)

/-- The identifier of a field in generated code. Keywords are escaped. -/
def fieldIdentifier (field : String) : String :=
  if field = "self" then "is_self"
  else if ["final", "loop", "static", "type"].contains field then "r#" ++ field
  else String.ofList (field.toList.map Char.toLower)

/-- The characters of a text, each with the byte at which it starts. -/
def charIndices (start : Nat) : List Char → List (Nat × Char)
  | [] => []
  | c :: cs => (start, c) :: charIndices (start + c.utf8Size) cs

/-- The byte of `first` behind the characters that both texts begin with. -/
def sharedEnd (first name : List Char) : Nat :=
  (((charIndices 0 first).zip name).takeWhile fun ((_, a), b) => a == b).getLast?.elim 0
    fun ((i, a), _) => i + a.utf8Size

/-- What all names begin with is cut from the first of them, at the least of the bytes at which
another name parts from it. -/
def commonPrefix : List String → String
  | [] => ""
  | first :: rest =>
    let stop := rest.foldl (fun stop name => min (sharedEnd first.toList name.toList) stop)
      first.utf8ByteSize
    match Text.splitAtByte? stop first.toList with
    | some (start, _) => String.ofList start
    | none => ""

end TypeLang.Casing

namespace TypeLang.QualifiedName

def displayName (n : QualifiedName) : String :=
  Casing.pascal n.name

end TypeLang.QualifiedName
