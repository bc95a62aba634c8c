import TypeLang.Command.ConfigFile
import TypeLang.Command.Files
import TypeLang.Command.Options
import TypeLang.Plan.PlanSet
import TypeLang.Report.Plan
import TypeLang.Report.Summary
import TypeLang.Schema.Reader

/-!
# The command

`Command.run` reads a configuration and schemas, compiles them and prints the plan set. Everything
that it reads and writes goes through a `FileAccess`, so that it runs on a real file system as well
as on a `FileTree`.
-/

namespace TypeLang.Command

structure Failure where
  /-- What it was doing, or what is wrong. -/
  context : String
  /-- The reasons, each the cause of the one in front of it. -/
  causes : List String := []
  deriving DecidableEq, Repr

def indented (width : Nat) (text : String) : String :=
  ("\n" ++ String.ofList (List.replicate width ' ')).intercalate
    ((Text.splitAll '\n' text.toList).map String.ofList)

def causeLine (single : Bool) (cause : String) (index : Nat) : String :=
  if single then "\n    " ++ indented 4 cause
  else
    let number := toString index
    "\n" ++ String.ofList (List.replicate (5 - number.length) ' ') ++ number ++ ": "
      ++ indented 7 cause

/-- What is printed about a failure. Several causes are numbered. -/
def Failure.render (f : Failure) : String :=
  let causes := f.causes.zipIdx.map fun (cause, index) => causeLine (f.causes.length = 1) cause index
  "Error: " ++ f.context ++ (if causes.isEmpty then "" else "\n\nCaused by:") ++ String.join causes
    ++ "\n"

structure Outcome where
  code : UInt8
  stdout : String := ""
  stderr : String := ""
  deriving DecidableEq, Repr

/-! ## Reading -/

def causesOf (e : ParseError) : List String :=
  match e with
  | .type _ _ fault => [e.message, fault.message]
  | .io reason => [e.message, reason]
  | _ => [e.message]

/-- A schema file is a document if its name ends in `.json`, in any ASCII case. -/
def isDocument (path : String) : Bool :=
  (Path.extension? path).any fun e => e.toList.map Char.toLower == "json".toList

/-- The schema in a file. A directory can be opened, and fails only when declarations are read. -/
def schemaOf (e : SchemaEntry) (content : Except FileFault (List UInt8)) : Except ParseError Schema :=
  match content with
  | .ok bytes =>
    if isDocument e.path then Schema.ofJsonBytes e.config bytes
    else Schema.ofBytes e.config bytes
  | .error fault =>
    if fault = .directory ∧ ¬ isDocument e.path then
      Schema.ofSource e.config [.failure fault.message]
    else .error (.io fault.message)

def readSchema [Monad m] (files : FileAccess m) (e : SchemaEntry) : ExceptT Failure m Schema := do
  match schemaOf e (← files.read e.path) with
  | .ok s => return s
  | .error error => throw ⟨"loading schema " ++ e.path, causesOf error⟩

/-- The configuration in a file. Its paths are seen from the directory of the file. -/
def configOf (path : String) (content : Except FileFault (List UInt8)) : Except Failure ConfigFile :=
  match content with
  | .error fault => .error ⟨"reading config " ++ path, [fault.message]⟩
  | .ok bytes =>
    match Text.ofUtf8? bytes with
    | none => .error ⟨"reading config " ++ path, ["stream did not contain valid UTF-8"]⟩
    | some text =>
      match ConfigFile.parse? text with
      | none => .error ⟨"parsing config " ++ path, ["invalid configuration"]⟩
      | some c => .ok (c.within (Path.directory path))

def readConfig [Monad m] (files : FileAccess m) (o : Options) : ExceptT Failure m ConfigFile := do
  match o.config with
  | none => return {}
  | some path =>
    match configOf path (← files.read path) with
    | .ok c => return c
    | .error failure => throw failure

/-! ## Running -/

def render (format : OutputFormat) (p : PlanSet) : String :=
  match format with
  | .json => p.toDocument.pretty ++ "\n"
  | .summary => Summary.render p

def entries (c : ConfigFile) (o : Options) : List SchemaEntry :=
  c.schemas ++ o.schemas.map fun a => ⟨a.path, a.config o.supertype⟩

/-- Runs the command; what it prints is the result. -/
def execute [Monad m] (files : FileAccess m) (o : Options) : ExceptT Failure m String := do
  let c ← readConfig files o
  let entries := entries c o
  if entries.isEmpty then
    throw { context := "no schemas given; use --schema or a --config file with [[schemas]]" }
  let schemas ← entries.mapM (readSchema files)
  match compile schemas c.capabilities with
  | .error e => throw ⟨"compiling plans", [e.message]⟩
  | .ok plans =>
    let text := render (o.format.getD .json) plans
    match o.output with
    | none => return text
    | some path =>
      match ← files.write path (Text.toUtf8 text) with
      | .ok () => return ""
      | .error fault => throw ⟨"writing " ++ path, [fault.message]⟩

def usage : String :=
  "\n".intercalate
    ["Compile TL schemas into wire-layout and dispatch plans",
      "",
      "Usage: tlplan [OPTIONS]",
      "",
      "Options:",
      "  -c, --config <FILE>           TOML file listing schemas and capability tags",
      "  -s, --schema <PATH[=PREFIX]>  Schema file (.tl or .json), optionally with a prefix",
      "      --supertype <NAME>        Default supertype of unprefixed schemas given with --schema",
      "  -f, --format <FORMAT>         Output format: json (default) or summary",
      "  -o, --output <FILE>           Write to FILE instead of stdout",
      "  -v, --verbose                 More logging (repeatable)",
      "  -q, --quiet                   Only log errors",
      "  -h, --help                    Print help",
      ""]

def run [Monad m] (files : FileAccess m) (args : List String) : m Outcome := do
  match Options.parse args with
  | .error .help => return { code := 0, stdout := usage }
  | .error .invalid => return { code := 2, stderr := "error: invalid arguments\n\n" ++ usage }
  | .ok o =>
    match ← (execute files o).run with
    | .ok text => return { code := 0, stdout := text }
    | .error failure => return { code := 1, stderr := failure.render }

end TypeLang.Command
