import TypeLang.Category
import TypeLang.Text.Blank
import TypeLang.Text.Number
import TypeLang.TypeExpr

/-!
# Reading type expressions

`TypeExpr.parse` reads the type of a parameter or a result. A flag stands only outside, a flags word
only alone, and variables only in methods: `!X` with any name, and plain `X` or a variable that the
method declares.
-/

namespace TypeLang

inductive TypeFault where
  | empty
  | flagExpression (text : String)
  | flagBit (bit : Nat)
  | gatedFlagsWord (text : String)
  | nestedFlag (text : String)
  | vector (text : String)
  | variableOutsideMethod (text : String)
  | name (text : String)
  deriving DecidableEq, Repr

def TypeFault.message : TypeFault → String
  | .empty => "empty type expression"
  | .flagExpression text => "invalid flag expression `" ++ text ++ "`"
  | .flagBit bit => "flag bit " ++ toString bit ++ " is out of range 0..=31"
  | .gatedFlagsWord text => "flags word `" ++ text ++ "` cannot be flag-gated"
  | .nestedFlag text => "nested flag condition in `" ++ text ++ "`"
  | .vector text => "invalid vector type `" ++ text ++ "`"
  | .variableOutsideMethod text => "type variable `" ++ text ++ "` is only allowed in methods"
  | .name text => "invalid type name `" ++ text ++ "`"

namespace Text

theorem length_dropEndWhile_le (p : Char → Bool) (cs : List Char) :
    (dropEndWhile p cs).length ≤ cs.length := by
  unfold dropEndWhile
  split
  · simpa using (List.dropWhile_sublist p (l := cs.reverse)).length_le
  · exact Nat.le_refl _

theorem length_trimChars_le (cs : List Char) : (trimChars cs).length ≤ cs.length :=
  Nat.le_trans (length_dropEndWhile_le ..) (List.dropWhile_sublist _).length_le

theorem dropHead?_eq_some {head cs rest : List Char} (h : dropHead? head cs = some rest) :
    cs = head ++ rest := by
  induction head generalizing cs with
  | nil => simpa [dropHead?] using h
  | cons c head ih =>
    cases cs with
    | nil => simp [dropHead?] at h
    | cons d cs =>
      simp only [dropHead?] at h
      split at h
      · rename_i hcd
        simp [hcd, ih h]
      · simp at h

theorem dropLast?_eq_some {last : Char} {cs rest : List Char} (h : dropLast? last cs = some rest) :
    cs = rest ++ [last] := by
  unfold dropLast? at h
  split at h
  · rename_i hlast
    simp only [Option.some.injEq] at h
    obtain ⟨front, rfl⟩ := List.getLast?_eq_some_iff.mp hlast
    simpa using h
  · simp at h

end Text

namespace TypeExpr

/-- A flag expression cut into its word, its bit and the gated type. -/
structure FlagParts where
  word : List Char
  bit : List Char
  inner : List Char

/-- Cuts `word.bit?inner` at its first dot and the first question mark behind that. The word must be
an identifier and the bit start with a digit. -/
def flagParts? (raw : List Char) : Option FlagParts := do
  let (word, rest) ← Text.splitFirst '.' raw
  let (bit, inner) ← Text.splitFirst '?' rest
  if isIdentifier word && rest.head?.any Char.isDigit then some ⟨word, bit, inner⟩ else none

theorem length_inner_flagParts? {raw : List Char} {parts : FlagParts}
    (h : flagParts? raw = some parts) : parts.inner.length < raw.length := by
  simp only [flagParts?, bind, Option.bind_eq_some_iff] at h
  obtain ⟨⟨word, rest⟩, hword, ⟨bit, inner⟩, hbit, h⟩ := h
  simp only at h
  split at h
  · simp only [Option.some.injEq] at h
    simp only at hbit
    rw [← h, (Text.splitFirst_eq_some hword).1, (Text.splitFirst_eq_some hbit).1]
    simp only [List.length_append, List.length_cons]
    omega
  · simp at h

/-- The element type and the boxing of `Vector<T>` or `vector<T>`; the element type is `none` if it
is missing or not closed. -/
def vectorParts? (raw : List Char) : Option (Option (List Char) × Bool) :=
  let element (rest : List Char) := (Text.dropLast? '>' rest).filter (!·.isEmpty)
  match Text.dropHead? "Vector<".toList raw with
  | some rest => some (element rest, true)
  | none => (Text.dropHead? "vector<".toList raw).map fun rest => (element rest, false)

theorem length_element_vectorParts? {raw inner : List Char} {boxed : Bool}
    (h : vectorParts? raw = some (some inner, boxed)) : inner.length < raw.length := by
  have key : ∀ {head rest : List Char}, Text.dropHead? head raw = some rest →
      (Text.dropLast? '>' rest).filter (!·.isEmpty) = some inner → inner.length < raw.length := by
    intro head rest hhead hlast
    rw [Option.filter_eq_some_iff] at hlast
    rw [Text.dropHead?_eq_some hhead, Text.dropLast?_eq_some hlast.1]
    simp only [List.length_append, List.length_cons, List.length_nil]
    omega
  unfold vectorParts? at h
  simp only at h
  split at h
  · rename_i rest hhead
    simp only [Option.some.injEq, Prod.mk.injEq] at h
    exact key hhead h.1
  · simp only [Option.map_eq_some_iff, Prod.mk.injEq] at h
    obtain ⟨rest, hhead, h, -⟩ := h
    exact key hhead h

def gate (raw : List Char) (flag : Flag) : TypeExpr → Except TypeFault TypeExpr
  | .primitive .flags => .error (.gatedFlagsWord (String.ofList raw))
  | .flag _ _ => .error (.nestedFlag (String.ofList raw))
  | inner => .ok (.flag flag inner)

def vectorOf (raw : List Char) (boxed : Bool) : TypeExpr → Except TypeFault TypeExpr
  | .primitive .flags => .error (.vector (String.ofList raw))
  | .flag _ _ => .error (.vector (String.ofList raw))
  | inner => .ok (.vector inner boxed)

def parseName (category : Category) (declared : List String) (raw : List Char) :
    Except TypeFault TypeExpr :=
  match Text.dropHead? ['!'] raw with
  | some variableName =>
    match category with
    | .constructor => .error (.variableOutsideMethod (String.ofList raw))
    | .method =>
      if isIdentifier variableName then .ok (.var (String.ofList variableName))
      else .error (.name (String.ofList raw))
  | none =>
    if category = .method ∧ ("X" :: declared).contains (String.ofList raw) then
      .ok (.var (String.ofList raw))
    else
      let (plain, marked) := match Text.dropHead? ['%'] raw with
        | some rest => (rest, true)
        | none => (raw, false)
      match QualifiedName.parse? plain with
      | some name => .ok (.named name (marked || name.isLowercase))
      | none => .error (.name (String.ofList plain))

def parseChars (category : Category) (declared : List String) (text : List Char) :
    Except TypeFault TypeExpr :=
  let raw := Text.trimChars text
  if raw.isEmpty then .error .empty
  else
    match Primitive.ofKeyword? raw with
    | some p => .ok (.primitive p)
    | none =>
      if raw.contains '?' then
        match _h : flagParts? raw with
        | none => .error (.flagExpression (String.ofList raw))
        | some parts =>
          match Text.natBelow? 10 UInt64.size parts.bit with
          | none => .error (.flagExpression (String.ofList raw))
          | some bit =>
            if hbit : bit < 32 then do
              let inner ← parseChars category declared parts.inner
              gate raw ⟨String.ofList parts.word, ⟨bit, hbit⟩⟩ inner
            else .error (.flagBit bit)
      else
        match _h : vectorParts? raw with
        | some (some element, boxed) => do
          let inner ← parseChars category declared element
          vectorOf raw boxed inner
        | some (none, _) => .error (.vector (String.ofList raw))
        | none => parseName category declared raw
termination_by text.length
decreasing_by
  · exact Nat.lt_of_lt_of_le (length_inner_flagParts? _h) (Text.length_trimChars_le text)
  · exact Nat.lt_of_lt_of_le (length_element_vectorParts? _h) (Text.length_trimChars_le text)

/-- Reads a type expression in a declaration of the given category that declares the variables
`declared`. -/
def parse (category : Category) (declared : List String) (text : String) :
    Except TypeFault TypeExpr :=
  parseChars category declared text.toList

/-- Reads a result type. These are type expressions, except that `Vector t` is the result of the
declaration of vectors. -/
def parseResult (category : Category) (declared : List String) (text : String) :
    Except TypeFault TypeExpr :=
  match Text.splitFirst ' ' text.toList with
  | some (head, rest) =>
    if head = "Vector".toList then .ok (.vector (.var (String.ofList rest)) true)
    else parse category declared text
  | none => parse category declared text

end TypeExpr

end TypeLang
