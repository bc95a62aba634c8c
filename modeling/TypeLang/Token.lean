import TypeLang.Category
import TypeLang.Position
import TypeLang.Text.Quote

/-!
# Tokens

What the lexer yields for a schema text, and why it stops.
-/

namespace TypeLang

/-- What a token stands for. A declaration gives a name, an identifier, its generic variables, its
parameters, if any, between a begin and an end mark, and a result type, in this order. -/
inductive TokenKind where
  | sectionMark (category : Category)
  | name (text : String)
  | id (value : UInt32)
  | typeParam (name : String)
  | paramsBegin
  | paramName (text : String)
  | paramType (text : String)
  | paramsEnd
  | resultType (text : String)
  deriving DecidableEq, Repr, Inhabited

structure Token where
  kind : TokenKind
  position : Position
  deriving DecidableEq, Repr, Inhabited

inductive Expectation where
  | declarationName
  | identifier
  | equals
  | genericBlock
  | parameter
  | parameterOrEquals
  | parameterType
  | parameterOrResult
  | resultType
  deriving DecidableEq, Repr

def Expectation.describe : Expectation → String
  | .declarationName => "declaration name"
  | .identifier => "identifier"
  | .equals => "`=`"
  | .genericBlock => "generic block `\x7bX:Type\x7d`"
  | .parameter => "parameter `name:type`"
  | .parameterOrEquals => "parameter or `=`"
  | .parameterType => "parameter type"
  | .parameterOrResult => "parameter or result type"
  | .resultType => "result type"

/-- Why a text has no further tokens. -/
inductive LexFault where
  /-- A line break inside a declaration. -/
  | newline
  /-- The input ends inside a declaration or a comment mark. -/
  | endOfInput
  | character (byte : UInt8)
  | word (found : String) (expected : Expectation)
  /-- A second declaration where the text should hold one. -/
  | extraDeclaration (fullName : String)
  | sectionName (name : String)
  /-- What follows `#` is not a 32-bit hexadecimal number. -/
  | idLiteral (literal : String)
  | invalidUtf8
  /-- The byte source failed. -/
  | io (reason : String)
  deriving DecidableEq, Repr

def LexFault.describe : LexFault → String
  | .newline => "unexpected new line in the declaration"
  | .endOfInput => "unexpected end of input"
  | .character byte => "unexpected character " ++ Text.quoteByte byte
  | .word found expected => "unexpected `" ++ found ++ "`, expected " ++ expected.describe
  | .extraDeclaration fullName => "unexpected " ++ fullName ++ ", expected end of input"
  | .sectionName name => "unknown section separator `---" ++ name ++ "---`"
  | .idLiteral literal => "invalid identifier literal `" ++ literal ++ "`"
  | .invalidUtf8 => "token is not valid UTF-8"
  | .io reason => "i/o error: " ++ reason

structure LexError where
  fault : LexFault
  position : Position
  deriving DecidableEq, Repr

def LexError.message (e : LexError) : String :=
  e.fault.describe ++ " at " ++ e.position.describe

end TypeLang
