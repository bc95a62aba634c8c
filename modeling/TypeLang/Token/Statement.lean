import TypeLang.Crc32
import TypeLang.Text.Number
import TypeLang.Text.Split
import TypeLang.Text.Utf8
import TypeLang.Token

/-!
# Statements

A statement is the words of one declaration up to its `;`. `Statement.tokens` gives the tokens of
the declaration that the words spell.

A declaration without `#id` that still has parameters gets the identifier that the language derives
for it, the checksum of its words joined by single spaces. One without identifier and parameters
describes a built-in type and has no tokens.
-/

namespace TypeLang

/-- One blank-delimited unit of a declaration. `=` always forms a word of its own. -/
structure Word where
  text : String
  position : Position
  deriving DecidableEq, Repr

namespace Word

def byteLength (cs : List Char) : Nat :=
  (String.ofList cs).utf8ByteSize

/-- `name:type`, as opposed to `?`, `#` or a `{t:Type}` block. -/
def isParameter (w : Word) : Bool :=
  let cs := w.text.toList
  cs.head? ≠ some '{' && cs.contains ':'

def unexpected (w : Word) (expected : Expectation) : LexError :=
  ⟨.word w.text expected, w.position⟩

/-- The tokens of a parameter word `name:type`, cut at the first colon. -/
def parameterTokens (w : Word) : Except LexError (List Token) :=
  match Text.splitFirst ':' w.text.toList with
  | some (name, type) =>
    if name.isEmpty || type.isEmpty then .error (w.unexpected .parameter)
    else .ok [⟨.paramName (String.ofList name), w.position⟩,
      ⟨.paramType (String.ofList type), w.position.skip (byteLength name + 1)⟩]
  | none => .error (w.unexpected .parameter)

/-- The variable that a block `{t:Type}` declares. -/
def blockVariable? (w : Word) : Option (List Char) := do
  let inner ← Text.dropHead? ['{'] w.text.toList
  let body ← Text.dropLast? '}' inner
  let (name, _) ← Text.splitFirst ':' body
  if name.isEmpty then none else some name

/-- The identifier that 1 to 8 hexadecimal digits spell. -/
def idLiteral? (literal : List Char) : Option UInt32 :=
  if literal.isEmpty || byteLength literal > 8 then none else Text.uint32? 16 literal

end Word

/-- The words of a declaration and the position of the `;` that ends it. -/
structure Statement where
  words : List Word
  stop : Position
  deriving DecidableEq, Repr

namespace Statement

/-- The `;` as a word, for messages. -/
def stopWord (stop : Position) : Word := ⟨";", stop⟩

/-- The token of a result type, which are the words between `=` and `;` joined by single
spaces. -/
def resultTokens (stop : Position) (words : List Word) : Except LexError (List Token) :=
  match words.find? (·.text == "=") with
  | some w => .error (w.unexpected .resultType)
  | none =>
    match words with
    | [] => .error ((stopWord stop).unexpected .resultType)
    | first :: _ => .ok [⟨.resultType (" ".intercalate (words.map (·.text))), first.position⟩]

def laterTokens (stop : Position) : List Word → Except LexError (List Token)
  | [] => .error ((stopWord stop).unexpected .parameterOrEquals)
  | w :: rest =>
    if w.text = "=" then
      (resultTokens stop rest).map (⟨.paramsEnd, w.position⟩ :: ·)
    else do
      let parameter ← w.parameterTokens
      let later ← laterTokens stop rest
      return parameter ++ later

/-- The tokens behind the name and the identifier. Before the first parameter a `?` stands for
nothing and a `#` for everything up to the next `=`. -/
def bodyTokens (stop : Position) : List Word → Except LexError (List Token)
  | [] => .error ((stopWord stop).unexpected .parameterOrEquals)
  | w :: rest =>
    if w.text = "=" then resultTokens stop rest
    else if w.text = "#" then
      match rest.dropWhile (·.text != "=") with
      | [] => .error ((stopWord stop).unexpected .equals)
      | _ :: result => resultTokens stop result
    else if w.text = "?" then bodyTokens stop rest
    else if w.text.toList.head? = some '{' then
      match w.blockVariable? with
      | some variableName => do
        let later ← bodyTokens stop rest
        return ⟨.typeParam (String.ofList variableName), w.position⟩ :: later
      | none => .error (w.unexpected .genericBlock)
    else do
      let parameter ← w.parameterTokens
      let later ← laterTokens stop rest
      return ⟨.paramsBegin, w.position⟩ :: parameter ++ later

/-- The checksum of the words joined by single spaces. -/
def derivedId (words : List Word) : UInt32 :=
  Crc32.checksum (Text.toUtf8 (" ".intercalate (words.map (·.text))))

/-- The tokens of a declaration; a faulty one has none. -/
def tokens (s : Statement) : Except LexError (List Token) :=
  match s.words with
  | [] => .ok []
  | head :: rest =>
    let declare (name : String) (id : UInt32) (idPosition : Position) := do
      let body ← bodyTokens s.stop rest
      return ⟨.name name, head.position⟩ :: ⟨.id id, idPosition⟩ :: body
    match Text.splitFirst '#' head.text.toList with
    | some (name, literal) =>
      let idPosition := head.position.skip (Word.byteLength name + 1)
      if name.isEmpty then .error (head.unexpected .declarationName)
      else
        match Word.idLiteral? literal with
        | some id => declare (String.ofList name) id idPosition
        | none => .error ⟨.idLiteral (String.ofList literal), idPosition⟩
    | none =>
      if (rest.takeWhile (·.text != "=")).any Word.isParameter then
        declare head.text (derivedId s.words) head.position
      else .ok []

end Statement

end TypeLang
