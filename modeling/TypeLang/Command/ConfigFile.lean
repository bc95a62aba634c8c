import TypeLang.Path
import TypeLang.Plan.Capability
import TypeLang.Schema
import TypeLang.Toml.Parser

/-!
# Configuration files

A configuration file lists schemas with their settings and attaches capability tags to names.
Entries that it does not know are ignored.
-/

namespace TypeLang

structure SchemaEntry where
  path : String
  config : SchemaConfig
  deriving DecidableEq, Repr, Inhabited

structure ConfigFile where
  schemas : List SchemaEntry := []
  capabilities : Capabilities := {}
  deriving DecidableEq, Repr, Inhabited

namespace ConfigFile

def textField? (entries : Toml.Entries) (key default : String) : Option String :=
  match entries.lookup key with
  | none => some default
  | some v => v.string?

/-- A name of a format, which may also be the only key of a table and stand for an empty table. -/
def idFormat? : Toml → Option IdFormat
  | .string label => IdFormat.ofLabel? label
  | .table _ [(label, .table _ [])] => IdFormat.ofLabel? label
  | _ => none

def schemaEntry? : Toml → Option SchemaEntry
  | .table _ entries => do
    let default : SchemaConfig := {}
    let path ← (entries.lookup "path").bind Toml.string?
    let name ← textField? entries "name" default.name
    let namespacePrefix ← textField? entries "namespace_prefix" default.namespacePrefix
    let defaultSupertype ← textField? entries "default_supertype" default.defaultSupertype
    let idFormat ← match entries.lookup "id_format" with
      | none => some default.idFormat
      | some v => idFormat? v
    return ⟨path, { name, namespacePrefix, defaultSupertype, idFormat }⟩
  | _ => none

/-- The items of an array; a missing one has none. -/
def items? (item? : Toml → Option α) : Option Toml → Option (List α)
  | none => some []
  | some v => v.array?.bind (·.mapM item?)

def tags? (v : Toml) : Option (List String) :=
  v.array?.bind (·.mapM Toml.string?)

/-- The tags of single names; a missing table has none. -/
def exactTags? : Option Toml → Option (List (String × List String))
  | none => some []
  | some (.table _ entries) => entries.mapM fun (name, tags) => return (name, ← tags? tags)
  | some _ => none

def patternRule? (v : Toml) : Option PatternRule := do
  match ← v.record? ["pattern", "tags"] with
  | [some pattern, some tags] => return ⟨← pattern.string?, ← tags? tags⟩
  | _ => none

def capabilities? : Option Toml → Option Capabilities
  | none => some {}
  | some v => do
    match ← v.record? ["exact", "patterns"] with
    | [exact, patterns] => return ⟨← exactTags? exact, ← items? patternRule? patterns⟩
    | _ => none

def ofToml? : Toml → Option ConfigFile
  | .table _ entries => do
    let schemas ← items? schemaEntry? (entries.lookup "schemas")
    let capabilities ← capabilities? (entries.lookup "capabilities")
    return { schemas, capabilities }
  | _ => none

def parse? (text : String) : Option ConfigFile :=
  (Toml.parse? text).bind ofToml?

def within (c : ConfigFile) (dir : String) : ConfigFile :=
  { c with schemas := c.schemas.map fun e => { e with path := Path.join dir e.path } }

end ConfigFile

end TypeLang
