import TypeLang.Text.Number

/-!
# Documents

Reports are documents of nested lists and records whose fields keep their order. `Document.pretty`
writes one as JSON, each item on a line of its own and indented by two blanks per level.
-/

namespace TypeLang

inductive Document where
  | null
  | bool (value : Bool)
  | number (value : Int)
  | text (value : String)
  | list (items : List Document)
  | record (fields : List (String × Document))
  deriving Repr, Inhabited

namespace Document

def ofNat (n : Nat) : Document := number n

def ofId (id : UInt32) : Document := number id.toNat

def ofOption (f : α → Document) : Option α → Document
  | none => null
  | some a => f a

def texts (items : List String) : Document :=
  list (items.map text)

/-! ## Writing -/

/-- A character inside a quoted text. Quotes, backslashes and control characters are escaped. -/
def escape (c : Char) : List Char :=
  if c = '"' then ['\\', '"']
  else if c = '\\' then ['\\', '\\']
  else if c = '\x08' then ['\\', 'b']
  else if c = '\t' then ['\\', 't']
  else if c = '\n' then ['\\', 'n']
  else if c = '\x0c' then ['\\', 'f']
  else if c = '\r' then ['\\', 'r']
  else if c.toNat < 0x20 then '\\' :: 'u' :: Text.hexDigits 4 c.toNat
  else [c]

def quote (s : String) : String :=
  String.ofList ('"' :: s.toList.flatMap escape ++ ['"'])

def newline (level : Nat) : String :=
  "\n" ++ String.ofList (List.replicate (2 * level) ' ')

def bracket (opening closing : String) (level : Nat) (items : List String) : String :=
  if items.isEmpty then opening ++ closing
  else
    opening ++ newline (level + 1) ++ ("," ++ newline (level + 1)).intercalate items
      ++ newline level ++ closing

def prettyAt (level : Nat) : Document → String
  | null => "null"
  | bool b => if b then "true" else "false"
  | number n => toString n
  | text s => quote s
  | list items => bracket "[" "]" level (items.attach.map fun ⟨d, _⟩ => prettyAt (level + 1) d)
  | record fields =>
    bracket "\x7b" "\x7d" level
      (fields.attach.map fun ⟨(key, d), _⟩ => quote key ++ ": " ++ prettyAt (level + 1) d)
termination_by d => d
decreasing_by
  all_goals simp_wf
  · decreasing_trivial
  · rename_i h
    have := List.sizeOf_lt_of_mem h
    simp at this
    omega

def pretty (d : Document) : String :=
  prettyAt 0 d

end Document

end TypeLang
