import TypeLang.Pattern.Marked
import TypeLang.Pattern.Parser
import TypeLang.Plan.Error

/-!
# Capabilities

Tags that a configuration attaches to names, by the exact name or by a pattern.
-/

namespace TypeLang

structure PatternRule where
  pattern : String
  tags : List String
  deriving DecidableEq, Repr, Inhabited

structure Capabilities where
  /-- Tags of single names, each of which stands here at most once. -/
  exact : List (String × List String) := []
  patterns : List PatternRule := []
  deriving DecidableEq, Repr, Inhabited

structure CapabilityTable where
  exact : List (String × List String)
  patterns : List (Pattern × List String)

namespace CapabilityTable

/-- Reads the patterns; the first faulty one is reported. -/
def ofCapabilities (c : Capabilities) : Except PlanError CapabilityTable := do
  let patterns ← c.patterns.mapM fun rule =>
    match Pattern.parse? rule.pattern with
    | some p => .ok (p, rule.tags)
    | none => .error (.capabilityPattern rule.pattern)
  return ⟨c.exact, patterns⟩

/-- The tags of a name without repetitions: those of the exact name, then those of the patterns in
order. -/
def tags (t : CapabilityTable) (name : String) : List String :=
  let matched := t.patterns.flatMap fun (p, tags) => if p.occursIn name then tags else []
  ((t.exact.lookup name).getD [] ++ matched).eraseDups

end CapabilityTable

end TypeLang
