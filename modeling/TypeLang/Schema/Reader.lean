import TypeLang.Declaration.Reader
import TypeLang.Json.Parser
import TypeLang.Schema

/-!
# Reading schemas

A schema is written as declarations or as a JSON document. `Schema.ofSource` reads the first form,
`Schema.ofJsonText` the second.

The JSON form is a record of a version, constructors and methods. Each entry gives an identifier, a
name, parameters and a result type. It has no blocks for type variables, so that every parameter of
type `!t` declares `t`.
-/

namespace TypeLang.Schema

/-- Reads declarations up to the first error. -/
def ofSource (config : SchemaConfig) (source : List Delivery) : Except ParseError Schema := do
  let (items, reader) := (DeclarationReader.ofSource source).items
  let declarations ← items.mapM id
  return ofDeclarations config reader.layer declarations

def ofBytes (config : SchemaConfig) (bytes : List UInt8) : Except ParseError Schema :=
  ofSource config [.chunk bytes]

/-! ## Documents -/

inductive RawId where
  | number (n : Int)
  | text (s : String)
  deriving DecidableEq, Repr

namespace RawId

/-- The identifier. A number is decimal, whatever the format of texts. -/
def id? (format : IdFormat) : RawId → Option UInt32
  | number n => IdFormat.idOfInt? n
  | text s => format.id? s

def spelling : RawId → String
  | number n => toString n
  | text s => s

def ofJson? : Json → Option RawId
  | .integer n => if -0x8000000000000000 ≤ n ∧ n < 0x8000000000000000 then some (number n) else none
  | .string s => some (text s)
  | _ => none

end RawId

structure RawParam where
  name : String
  type : String
  deriving DecidableEq, Repr

structure RawEntry where
  id : RawId
  name : Option String
  params : List RawParam
  type : String
  deriving DecidableEq, Repr

structure RawSchema where
  version : Option UInt32
  constructors : List RawEntry
  methods : List RawEntry
  deriving DecidableEq, Repr

namespace RawParam

def ofJson? (j : Json) : Option RawParam := do
  match ← j.record? [["name"], ["type"]] with
  | [some name, some type] => return ⟨← name.string?, ← type.string?⟩
  | _ => none

def declares? (p : RawParam) : Option String :=
  (Text.dropHead? ['!'] (Text.trimChars p.type.toList)).map String.ofList

end RawParam

/-- The value of an array field; a missing field stands for the empty array. -/
def arrayField? (item? : Json → Option α) : Option Json → Option (List α)
  | none => some []
  | some j => j.array?.bind (·.mapM item?)

/-- The value of an optional text; a missing field and `null` stand for none. -/
def textField? : Option Json → Option (Option String)
  | none => some none
  | some .null => some none
  | some j => j.string?.map some

/-- The layer in a version, a number or a text; a text that is no number gives none. -/
def versionField? : Option Json → Option (Option UInt32)
  | none => some none
  | some .null => some none
  | some (.integer n) =>
    if 0 ≤ n ∧ n < 0x100000000 then some (some (UInt32.ofNat n.toNat)) else none
  | some (.string s) => some (Text.uint32? 10 (Text.trimChars s.toList))
  | some _ => none

def RawEntry.ofJson? (j : Json) : Option RawEntry := do
  match ← j.record? [["id"], ["predicate", "method"], ["params"], ["type"]] with
  | [some id, name, params, some type] =>
    return ⟨← RawId.ofJson? id, ← textField? name, ← arrayField? RawParam.ofJson? params,
      ← type.string?⟩
  | _ => none

def RawSchema.ofJson? (j : Json) : Option RawSchema := do
  match ← j.record? [["version"], ["constructors"], ["methods"]] with
  | [version, constructors, methods] =>
    return ⟨← versionField? version, ← arrayField? RawEntry.ofJson? constructors,
      ← arrayField? RawEntry.ofJson? methods⟩
  | _ => none

def RawEntry.declaration (e : RawEntry) (format : IdFormat) (category : Category) :
    Except ParseError Declaration := do
  let id ← match e.id.id? format with
    | some id => pure id
    | none => .error (.jsonId e.id.spelling)
  let spelling ← match e.name with
    | some name => pure name
    | none => .error (.missingJsonName e.id.spelling)
  let name ← match QualifiedName.parse? spelling.toList with
    | some name => pure name
    | none => .error (.type spelling none (.name spelling))
  let declared := e.params.filterMap RawParam.declares?
  let params ← e.params.mapM fun p =>
    match TypeExpr.parse category declared p.type with
    | .ok t => .ok ⟨p.name, t⟩
    | .error fault => .error (.type spelling (some p.name) fault)
  match TypeExpr.parseResult category declared e.type with
  | .ok result => return ⟨category, id, name, params, result⟩
  | .error fault => .error (.type spelling none fault)

def ofJsonText (config : SchemaConfig) (text : String) : Except ParseError Schema := do
  let raw ← match (Json.parse? text).bind RawSchema.ofJson? with
    | some raw => pure raw
    | none => .error .json
  let constructors ← raw.constructors.mapM (·.declaration config.idFormat .constructor)
  let methods ← raw.methods.mapM (·.declaration config.idFormat .method)
  return { config, layer := raw.version, constructors, methods }

def ofJsonBytes (config : SchemaConfig) (bytes : List UInt8) : Except ParseError Schema :=
  match Text.ofUtf8? bytes with
  | some text => ofJsonText config text
  | none => .error (.io "stream did not contain valid UTF-8")

end TypeLang.Schema
