import TypeLang.Command.SchemaArg

/-!
# Options

The options of the command line. A long option takes its value behind an equals sign or from the
next argument. Short options can be put together; the last one takes what follows it, with or
without an equals sign, or the next argument as its value. A value from the next argument does not
start with a hyphen, unless it is a single one.
-/

namespace TypeLang

inductive OutputFormat where
  | json
  | summary
  deriving DecidableEq, Repr, Inhabited

def OutputFormat.ofLabel? : String → Option OutputFormat
  | "json" => some .json
  | "summary" => some .summary
  | _ => none

structure Options where
  /-- A configuration file. -/
  config : Option String := none
  schemas : List SchemaArg := []
  /-- The supertype of schemas without a prefix among the arguments. -/
  supertype : Option String := none
  format : Option OutputFormat := none
  /-- The file that is written instead of the standard output. -/
  output : Option String := none
  verbosity : Nat := 0
  quiet : Bool := false
  deriving DecidableEq, Repr, Inhabited

inductive UsageStop where
  /-- They ask for help. -/
  | help
  | invalid
  deriving DecidableEq, Repr

namespace Options

inductive Setting where
  | config
  | schema
  | supertype
  | format
  | output
  deriving DecidableEq, Repr

inductive Switch where
  | verbose
  | quiet
  | help
  deriving DecidableEq, Repr

def ofLong? : String → Option (Setting ⊕ Switch)
  | "config" => some (.inl .config)
  | "schema" => some (.inl .schema)
  | "supertype" => some (.inl .supertype)
  | "format" => some (.inl .format)
  | "output" => some (.inl .output)
  | "verbose" => some (.inr .verbose)
  | "quiet" => some (.inr .quiet)
  | "help" => some (.inr .help)
  | _ => none

def ofShort? : Char → Option (Setting ⊕ Switch)
  | 'c' => some (.inl .config)
  | 's' => some (.inl .schema)
  | 'f' => some (.inl .format)
  | 'o' => some (.inl .output)
  | 'v' => some (.inr .verbose)
  | 'q' => some (.inr .quiet)
  | 'h' => some (.inr .help)
  | _ => none

/-- Gives a setting its value. Only schemas can be given more than once, and a path is not empty. -/
def assign (o : Options) (setting : Setting) (value : String) : Except UsageStop Options :=
  match setting with
  | .config => if o.config.isSome || value.isEmpty then .error .invalid else .ok { o with config := value }
  | .schema =>
    match SchemaArg.parse value with
    | .ok a => .ok { o with schemas := o.schemas ++ [a] }
    | .error _ => .error .invalid
  | .supertype => if o.supertype.isSome then .error .invalid else .ok { o with supertype := value }
  | .format =>
    match o.format, OutputFormat.ofLabel? value with
    | none, some f => .ok { o with format := f }
    | _, _ => .error .invalid
  | .output => if o.output.isSome || value.isEmpty then .error .invalid else .ok { o with output := value }

def switchOn (o : Options) : Switch → Except UsageStop Options
  | .verbose => .ok { o with verbosity := o.verbosity + 1 }
  | .quiet => if o.quiet then .error .invalid else .ok { o with quiet := true }
  | .help => .error .help

/-- Can be the value of an option in front of it. -/
def isValue (arg : String) : Bool :=
  arg.toList.head? != some '-' || arg == "-"

/-- Reads short options that are put together. A setting at the end that still needs a value comes
along. -/
def cluster (o : Options) : List Char → Except UsageStop (Options × Option Setting)
  | [] => .ok (o, none)
  | c :: rest =>
    match ofShort? c, rest with
    | some (.inr switch), _ => do (← o.switchOn switch).cluster rest
    | some (.inl setting), [] => .ok (o, some setting)
    | some (.inl setting), '=' :: value => return (← o.assign setting (String.ofList value), none)
    | some (.inl setting), value => return (← o.assign setting (String.ofList value), none)
    | none, _ => .error .invalid

def argument (o : Options) (arg : String) : Except UsageStop (Options × Option Setting) :=
  match arg.toList with
  | '-' :: '-' :: long =>
    let (name, value?) := match Text.splitFirst '=' long with
      | some (name, value) => (name, some (String.ofList value))
      | none => (long, none)
    match ofLong? (String.ofList name), value? with
    | some (.inl setting), some value => return (← o.assign setting value, none)
    | some (.inl setting), none => .ok (o, some setting)
    | some (.inr switch), none => return (← o.switchOn switch, none)
    | _, _ => .error .invalid
  | '-' :: c :: rest => o.cluster (c :: rest)
  | _ => .error .invalid

/-- Reads arguments where the option in front of them may still need its value. Behind two hyphens
there are no options, and only options are understood. -/
def parseFrom (o : Options) (open? : Option Setting) : List String → Except UsageStop Options
  | [] => if open?.isSome then .error .invalid else .ok o
  | arg :: rest =>
    match open? with
    | some setting =>
      if isValue arg then do parseFrom (← o.assign setting arg) none rest else .error .invalid
    | none =>
      if arg = "--" then if rest.isEmpty then .ok o else .error .invalid
      else do
        let (o, open?) ← o.argument arg
        o.parseFrom open? rest

/-- Reads the arguments of the command. They cannot ask for more and for less output. -/
def parse (args : List String) : Except UsageStop Options := do
  let o ← parseFrom {} none args
  if o.quiet && 0 < o.verbosity then throw .invalid else return o

end Options

end TypeLang
