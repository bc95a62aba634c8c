import TypeLang.Plan.Error
import TypeLang.Plan.TypeGroup

/-!
# Representations

How the values of a type are represented: by the fields of its only constructor, by an identifier
alone if no constructor has parameters, or behind an interface of the fields that all constructors
share.
-/

namespace TypeLang

structure EnumMember where
  /-- What is left of the name behind the common beginning of all members. -/
  label : String
  /-- The label in `UPPER_SNAKE_CASE`. -/
  constant : String
  id : UInt32
  name : String
  deriving DecidableEq, Repr, Inhabited

structure CommonField where
  name : String
  /-- The type without a flag. -/
  type : TypeExpr
  /-- Some member declares the field behind a flag. -/
  optional : Bool
  deriving DecidableEq, Repr, Inhabited

structure InterfaceMember where
  id : UInt32
  name : String
  displayName : String
  deriving DecidableEq, Repr, Inhabited

inductive Representation where
  | singleton (id : UInt32)
  | enum (members : List EnumMember)
  | interface (commonFields : List CommonField) (members : List InterfaceMember)
  deriving DecidableEq, Repr, Inhabited

namespace Representation

def ids : Representation → List UInt32
  | singleton id => [id]
  | enum members => members.map (·.id)
  | interface _ members => members.map (·.id)

def enumMember? (r : Representation) (id : UInt32) : Option EnumMember :=
  match r with
  | enum members => members.find? (·.id == id)
  | _ => none

def enumMember (d : Declaration) (label : List Char) : EnumMember :=
  let text := String.ofList label
  ⟨text, Casing.screaming text, d.id, d.fullName⟩

/-- Adds a constructor to the members of an enum. Its label is what is left of its name behind the
byte `start`, which must be something, and not the label of a member. -/
def addMember? (start : Nat) (members : List EnumMember) (d : Declaration) :
    Option (List EnumMember) := do
  let (_, label) ← Text.splitAtByte? start d.fullName.toList
  if label.isEmpty || members.any (·.label == String.ofList label) then none
  else some (members ++ [enumMember d label])

def ofEnum (key : TypeKey) (ds : List Declaration) : Except PlanError Representation :=
  let names := ds.map (·.fullName)
  match ds.foldlM (addMember? (Casing.commonPrefix names).utf8ByteSize) [] with
  | some members => .ok (enum members)
  | none => .error (.enumLabels key.text names)

/-- The parameters of the siblings that declare the same field as `p`, one of each; `none` if a
sibling has none. -/
def siblingFields? (p : Parameter) (siblings : List Declaration) : Option (List Parameter) :=
  siblings.mapM fun d => d.params.find? (·.sameField p)

/-- The field that `p` and all siblings declare. Whether a `true` is there is its value, so that it
is never optional. -/
def commonField? (p : Parameter) (siblings : List Declaration) : Option CommonField :=
  if p.type.isFlagsWord then none
  else
    (siblingFields? p siblings).map fun others =>
      ⟨p.name, p.type.erased, (p :: others).any (·.type.flag?.isSome) && !p.type.isTrueLiteral⟩

def ofInterface (key : TypeKey) (first : Declaration) (rest : List Declaration) : Representation :=
  interface (first.params.filterMap (commonField? · rest))
    ((first :: rest).map fun d => ⟨d.id, d.fullName, d.constructorName key false⟩)

def ofConstructors (key : TypeKey) : List Declaration → Except PlanError Representation
  | [] => .error (.emptyType key.text)
  | [only] => .ok (singleton only.id)
  | first :: rest =>
    if (first :: rest).all (·.params.isEmpty) then ofEnum key (first :: rest)
    else .ok (ofInterface key first rest)

end Representation

end TypeLang
