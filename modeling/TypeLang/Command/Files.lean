import TypeLang.Path

/-!
# Files

What a command needs of a file system, and a file system that is held in memory.
-/

namespace TypeLang

inductive FileFault where
  | missing
  /-- A part of the path that should be a directory is a file. -/
  | notDirectory
  | directory
  | nameTooLong
  | noSpace
  /-- A path cannot hold the character zero. -/
  | zeroInPath
  | other (reason : String)
  deriving DecidableEq, Repr

def FileFault.message : FileFault → String
  | .missing => "No such file or directory (os error 2)"
  | .notDirectory => "Not a directory (os error 20)"
  | .directory => "Is a directory (os error 21)"
  | .noSpace => "No space left on device (os error 28)"
  | .nameTooLong => "File name too long (os error 36)"
  | .zeroInPath => "file name contained an unexpected NUL byte"
  | .other reason => reason

structure FileAccess (m : Type → Type) where
  read : (path : String) → m (Except FileFault (List UInt8))
  write : (path : String) → (content : List UInt8) → m (Except FileFault Unit)

/-- A file system that is held in memory. Files and directories are known by the names that lead to
them from the root. A directory is there if it is listed or if something is in it. -/
structure FileTree where
  files : List (List String × List UInt8)
  directories : List (List String) := []
  /-- Files that take no content. -/
  full : List (List String) := []
  /-- Where relative paths start. -/
  workingDirectory : List String := []
  deriving DecidableEq, Repr, Inhabited

namespace FileTree

def maxPath : Nat := 4095

def maxName : Nat := 255

def file? (t : FileTree) (names : List String) : Option (List UInt8) :=
  t.files.lookup names

/-- Is a file or a directory at or below these names? Root and working directory are always there.
-/
def isDirectory (t : FileTree) (names : List String) : Bool :=
  (t.workingDirectory :: t.directories).any (names.isPrefixOf ·)
    || t.files.any fun (file, _) => names.isPrefixOf file && names.length < file.length

/-- Follows the parts of a path from the directory or file `place`. Nothing is above the root. -/
def walk (t : FileTree) (place : List String) : (parts : List String) → Except FileFault (List String)
  | [] => .ok place
  | part :: rest =>
    if (t.file? place).isSome then .error .notDirectory
    else if Path.isIdle part then t.walk place rest
    else if part = ".." then t.walk place.dropLast rest
    else if maxName < part.utf8ByteSize then .error .nameTooLong
    else
      let next := place ++ [part]
      if (t.file? next).isSome || t.isDirectory next then t.walk next rest else .error .missing

/-- Where a path starts. Some texts are no paths. -/
def origin (t : FileTree) (path : String) : Except FileFault (List String) :=
  if path.toList.contains '\x00' then .error .zeroInPath
  else if path.isEmpty then .error .missing
  else if maxPath < path.utf8ByteSize then .error .nameTooLong
  else .ok (if Path.isAbsolute path then [] else t.workingDirectory)

def read (t : FileTree) (path : String) : Except FileFault (List UInt8) := do
  let place ← t.walk (← t.origin path) (Path.parts path)
  match t.file? place with
  | some content => return content
  | none => throw .directory

/-- Sets the content of a file. Its directory has to be there, and a slash behind its name asks for
a directory. -/
def write (t : FileTree) (path : String) (content : List UInt8) : Except FileFault FileTree := do
  let parts := Path.parts path
  let named := (parts.reverse.dropWhile (· == "")).reverse
  let dir ← t.walk (← t.origin path) named.dropLast
  let name := named.getLastD "."
  let place := dir ++ [name]
  if (t.file? dir).isSome then throw .notDirectory
  else if named.length < parts.length || name = "." || name = ".." then throw .directory
  else if maxName < name.utf8ByteSize then throw .nameTooLong
  else if t.isDirectory place then throw .directory
  else if t.full.contains place then throw .noSpace
  else return { t with files := (place, content) :: t.files.filter (·.1 ≠ place) }

def access : FileAccess (StateM FileTree) where
  read path := do return (← get).read path
  write path content := do
    match (← get).write path content with
    | .ok t =>
      set t
      return .ok ()
    | .error e => return .error e

end FileTree

end TypeLang
