import TypeLang.Plan.PlanSet
import TypeLang.Text.Number

/-!
# Summaries

A plan set as lines of text: one for each schema and one for each declaration, with its identifier,
schema, name, display name, role and size in columns.
-/

namespace TypeLang.Summary

def pad (width : Nat) (s : String) : String :=
  s ++ String.ofList (List.replicate (width - s.length) ' ')

def schemaLine (s : SchemaSummary) : String :=
  let layer := match s.layer with
    | some n => s!" layer {n}"
    | none => ""
  s!"# {s.name}{layer}: {s.constructors} constructors, {s.methods} methods"

def roleText : Role → String
  | .singleton => "singleton"
  | .enumMember label _ => "enum:" ++ label
  | .interfaceMember => "member"
  | .method => "method"
  | .builtin => "builtin"

/-- The size of every value, or the part that is known and the number of fields that vary. -/
def sizeText : SizeFormula → String
  | .constant size => toString size
  | .dynamic base probes => s!"{base}+{probes.length}"

def declarationLine (d : DeclarationPlan) : String :=
  " ".intercalate
    [Text.hex8 d.id, pad 8 d.schema, pad 40 d.name, pad 32 d.displayName, pad 16 (roleText d.role),
      "size=" ++ sizeText d.layout.size ++ (if d.recursive then " recursive" else "")]

def render (p : PlanSet) : String :=
  let lines := p.schemas.map schemaLine ++ p.declarations.map declarationLine
  String.join (lines.map (· ++ "\n"))

end TypeLang.Summary
