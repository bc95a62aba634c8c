import TypeLang.Wire.JsonValue

/-!
# Values

Values whose type is known only at run time. An object holds the fields that are there: an optional
field that is absent has no entry, and flags words are not stored, because they follow from the
entries.
-/

namespace TypeLang

inductive Value where
  | int (value : Int32)
  | long (value : Int64)
  /-- Known by its bits. -/
  | double (bits : UInt64)
  /-- A truth value, or whether a `true` field is set. -/
  | bool (value : Bool)
  | bytes (payload : List UInt8)
  | string (text : String)
  | int128 (bytes : Vector UInt8 16)
  | int256 (bytes : Vector UInt8 32)
  | vector (items : List Value)
  /-- A value of the declaration with the given identifier. -/
  | object (id : UInt32) (fields : List (String × Value))
  | json (value : JsonValue)
  deriving Repr, Inhabited

/-- The fields of an object in the order in which they were set. -/
abbrev Fields := List (String × Value)

namespace Fields

def get? (fields : Fields) (name : String) : Option Value :=
  fields.lookup name

def contains (fields : Fields) (name : String) : Bool :=
  (fields.get? name).isSome

/-- Sets a field. A field that is set again keeps its position. -/
def set (fields : Fields) (name : String) (value : Value) : Fields :=
  if fields.contains name then
    fields.map fun (key, old) => if key == name then (key, value) else (key, old)
  else fields ++ [(name, value)]

theorem mem_of_get? {fields : Fields} {name : String} {value : Value}
    (h : fields.get? name = some value) : (name, value) ∈ fields := by
  induction fields with
  | nil => simp [get?] at h
  | cons field rest ih =>
    obtain ⟨key, other⟩ := field
    simp only [get?, List.lookup_cons] at h
    split at h
    · simp_all
    · exact List.mem_cons_of_mem _ (ih h)

theorem sizeOf_lt_of_get? {fields : Fields} {name : String} {value : Value}
    (h : fields.get? name = some value) : sizeOf value < sizeOf fields := by
  have := List.sizeOf_lt_of_mem (mem_of_get? h)
  simp at this
  omega

end Fields

namespace Value

def label : Value → String
  | int _ => "int"
  | long _ => "long"
  | double _ => "double"
  | bool _ => "Bool"
  | bytes _ => "bytes"
  | string _ => "string"
  | int128 _ => "int128"
  | int256 _ => "int256"
  | vector _ => "vector"
  | object _ _ => "object"
  | json _ => "JSONValue"

/-- The bytes of the value tell its type. -/
def isSelfDescribing : Value → Bool
  | object _ _ | bool _ | json _ | vector _ => true
  | _ => false

end Value

end TypeLang
