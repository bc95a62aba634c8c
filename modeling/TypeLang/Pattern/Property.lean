import TypeLang.Pattern.Property.Age
import TypeLang.Pattern.Property.Break
import TypeLang.Pattern.Property.Script

/-!
# Properties by name

The sets of characters that patterns name. `CharSet.ofProperty?` finds a set by what stands behind
`\p`: a property, or a property and a value, with any of the names that the standard gives to them.
-/

namespace TypeLang

namespace Property

/-- A name in normal form: the ASCII characters of it, in lower case, without blanks, `_` and `-`,
and without `is` in front. The abbreviation `isc` is kept. -/
def normalName (cs : List Char) : String :=
  let (marked, rest) := match cs with
    | a :: b :: rest => if a.toLower = 'i' ∧ b.toLower = 's' then (true, rest) else (false, cs)
    | _ => (false, cs)
  let counts (c : Char) := c.toNat < 0x80 && c != ' ' && c != '_' && c != '-'
  let kept := (rest.filter counts).map Char.toLower
  if marked ∧ kept = ['c'] then "isc" else String.ofList kept

end Property

namespace CharSet

def ofNamed? (properties : List Property) (name : String) : Option CharSet :=
  (properties.find? (·.names.contains name)).map fun p => ofTables p.tables

/-- A general category, or one of the three sets that count as categories. -/
def ofCategory? (name : String) : Option CharSet :=
  match name with
  | "any" => some full
  | "ascii" => some ascii
  | "assigned" => (ofNamed? Property.categories "cn").map complement
  | _ => ofNamed? Property.categories name

/-- The characters that are used in a script: those of the script, and others. -/
def ofScriptUse? (name : String) : Option CharSet := do
  if let some set := ofNamed? Property.sharedScripts name then return set
  let script ← Property.scripts.find? (·.names.contains name)
  let others := Property.scriptExtensions.filter fun (first, _) => script.names.contains first
  return ofTables (script.tables ++ others.map Prod.snd)

def ofAge? (name : String) : Option CharSet :=
  let written (age : String) : String := String.ofList ('v' :: age.toList.filter (· != '.'))
  let isNamed (age : String × String) : Bool := age.1 == name || written age.1 == name
  (Property.ages.findIdx? isNamed).map fun i =>
    ofTables ((Property.ages.take (i + 1)).map Prod.snd)

/-- The set that a single name stands for: a property, a general category or a script. Three
abbreviations are categories though they are properties as well. -/
def ofName? (name : String) : Option CharSet :=
  let asProperty :=
    if name = "cf" ∨ name = "sc" ∨ name = "lc" then none else ofNamed? Property.binary name
  asProperty.or ((ofCategory? name).or (ofNamed? Property.scripts name))

def ofValue? (name value : String) : Option CharSet :=
  match name with
  | "gc" | "generalcategory" => ofCategory? value
  | "sc" | "script" => ofNamed? Property.scripts value
  | "scx" | "scriptextensions" => ofScriptUse? value
  | "age" => ofAge? value
  | "gcb" | "graphemeclusterbreak" => ofNamed? Property.graphemeBreaks value
  | "wb" | "wordbreak" => ofNamed? Property.wordBreaks value
  | "sb" | "sentencebreak" => ofNamed? Property.sentenceBreaks value
  | _ => none

/-- The text in front of a separator and the text behind it, if it occurs. -/
def splitAt? (separator : List Char) : List Char → Option (List Char × List Char)
  | [] => none
  | c :: cs =>
    if separator.isPrefixOf (c :: cs) then some ([], (c :: cs).drop separator.length)
    else (splitAt? separator cs).map fun (front, rest) => (c :: front, rest)

/-- The set that a text behind `\p` stands for, and whether its complement is meant: a name, or a
name and a value with `=`, `:` or `!=` between them. -/
def ofProperty? (cs : List Char) : Option (CharSet × Bool) :=
  let value? (parts : List Char × List Char) :=
    ofValue? (Property.normalName parts.1) (Property.normalName parts.2)
  match splitAt? ['!', '='] cs with
  | some parts => (value? parts).map fun s => (s, true)
  | none =>
    match (splitAt? [':'] cs).or (splitAt? ['='] cs) with
    | some parts => (value? parts).map fun s => (s, false)
    | none => (ofName? (Property.normalName cs)).map fun s => (s, false)

end CharSet

end TypeLang
