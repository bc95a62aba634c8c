import TypeLang.Plan.Layout
import TypeLang.Value

/-!
# Presence

The value of a flags word follows from the fields that an object has.
-/

namespace TypeLang

def PresenceBit.mask (b : PresenceBit) : UInt32 :=
  1 <<< UInt32.ofNat b.bit.val

namespace Layout

/-- Is the field there? A `true` field is there if it is set, any other one if it has a value. -/
def isPresent (l : Layout) (fields : Fields) (name : String) : Bool :=
  if (l.field? name).any (·.kind == .trueBit) then
    match fields.get? name with
    | some (.bool value) => value
    | _ => false
  else fields.contains name

/-- The value of a flags word: the bits of the fields that are there. -/
def flagsWord (l : Layout) (fields : Fields) (word : String) : UInt32 :=
  ((l.bits word).filter fun b => l.isPresent fields b.field).foldl (fun w b => w ||| b.mask) 0

end Layout

end TypeLang
