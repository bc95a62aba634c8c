/-!
# JSON values

JSON as a schema document uses it. Numbers matter only if they are integers, and members keep the
order and the repetitions of the text.
-/

namespace TypeLang

inductive Json where
  | null
  | bool (value : Bool)
  | integer (value : Int)
  /-- A number with a fraction or an exponent, or negative zero. -/
  | decimal (literal : String)
  | string (value : String)
  | array (items : List Json)
  | object (members : List (String × Json))
  /-- A string, or an object with a key, whose escapes name half a surrogate pair. The text is JSON,
  but it has no value. -/
  | unpaired
  deriving Repr, Inhabited

namespace Json

def lookupAll (names : List String) (members : List (String × Json)) : List Json :=
  (members.filter fun (key, _) => names.contains key).map (·.2)

/-- The fields of a record, each known by one or more names. An object gives each field at most
once, among members that are ignored; an array gives the fields in order and may leave out the last
ones. -/
def record? (fields : List (List String)) : Json → Option (List (Option Json))
  | object members =>
    fields.mapM fun names =>
      match lookupAll names members with
      | [] => some none
      | [value] => some (some value)
      | _ => none
  | array items =>
    if items.length ≤ fields.length then
      some (items.map some ++ List.replicate (fields.length - items.length) none)
    else none
  | _ => none

def string? : Json → Option String
  | string s => some s
  | _ => none

def array? : Json → Option (List Json)
  | array items => some items
  | _ => none

end Json

end TypeLang
