import TypeLang.Text.Split

/-!
# Paths

Names of files, in which slashes separate the parts. Empty parts and single points have no meaning
except at the start.
-/

namespace TypeLang.Path

def isAbsolute (path : String) : Bool :=
  path.toList.head? == some '/'

def parts (path : String) : List String :=
  (Text.splitAll '/' path.toList).map String.ofList

def isIdle (part : String) : Bool :=
  part == "" || part == "."

def name? (path : String) : Option String :=
  ((parts path).filter (!isIdle ·)).getLast?.filter (· ≠ "..")

/-- What follows the last point of the name, unless the name starts with that point. -/
def extension? (path : String) : Option String := do
  let (stem, extension) ← Text.splitLast '.' (← name? path).toList
  if stem.isEmpty then none else return String.ofList extension

/-- A path, the last character first, without slashes and idle parts at its end. -/
def dropIdle : List Char → List Char
  | '/' :: rest => dropIdle rest
  | '.' :: '/' :: rest => dropIdle rest
  | cs => cs

def directory (path : String) : String :=
  match Text.splitLast '/' path.toList with
  | none => ""
  | some (dir, _) =>
    match dropIdle dir.reverse with
    | [] => "/"
    | cs => String.ofList cs.reverse

def join (dir path : String) : String :=
  if isAbsolute path then path
  else if dir.isEmpty || dir.toList.getLast? == some '/' then dir ++ path
  else dir ++ "/" ++ path

end TypeLang.Path
