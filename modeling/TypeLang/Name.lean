import TypeLang.Text.Split

/-!
# Qualified names

A dotted name such as `upload.fileCdnRedirect`: a path of namespaces and a last segment.
`QualifiedName.parse?` accepts exactly the non-empty identifiers joined by dots.
-/

namespace TypeLang

def isIdentifierChar (c : Char) : Bool :=
  c.isAlphanum || c == '_'

def isIdentifier (cs : List Char) : Bool :=
  !cs.isEmpty && cs.all isIdentifierChar

structure QualifiedName where
  /-- The namespaces, the outermost first; empty for a global name. -/
  path : List String
  /-- The last segment. -/
  name : String
  deriving DecidableEq, Repr, Inhabited

namespace QualifiedName

def fullName (n : QualifiedName) : String :=
  ".".intercalate (n.path ++ [n.name])

/-- Reads a name; every segment must be an identifier. -/
def parse? (text : List Char) : Option QualifiedName :=
  let segments := Text.splitAll '.' text
  if segments.all isIdentifier then
    some ⟨segments.dropLast.map String.ofList, String.ofList (segments.getLastD [])⟩
  else none

/-- A name whose last segment starts with a lowercase letter names a constructor. -/
def isLowercase (n : QualifiedName) : Bool :=
  n.name.toList.head?.any Char.isLower

end QualifiedName

end TypeLang
