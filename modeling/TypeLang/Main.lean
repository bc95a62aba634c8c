import TypeLang.Command.Run

/-!
# Command line

Runs the command on the files of the system.
-/

open TypeLang

def fileFault (e : IO.Error) : FileFault :=
  match e with
  | .noFileOrDirectory _ _ _ => .missing
  | .inappropriateType _ 20 _ => .notDirectory
  | .inappropriateType _ 21 _ => .directory
  | _ => .other (toString e)

def systemFiles : FileAccess IO where
  read path := do
    try return .ok (← IO.FS.readBinFile path).toList
    catch e => return .error (fileFault e)
  write path content := do
    try return .ok (← IO.FS.writeBinFile path ⟨content.toArray⟩)
    catch e => return .error (fileFault e)

def main (args : List String) : IO UInt32 := do
  let outcome ← Command.run systemFiles args
  (← IO.getStdout).putStr outcome.stdout
  (← IO.getStderr).putStr outcome.stderr
  return outcome.code.toUInt32
