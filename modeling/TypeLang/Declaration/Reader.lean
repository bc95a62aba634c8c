import TypeLang.Declaration
import TypeLang.Token.Lexer
import TypeLang.TypeExpr.Parser

/-!
# Reading declarations

`DeclarationReader.next` puts the tokens of a lexer together to declarations, one per call. It stops
after the first error. `Declaration.parse` reads a text that holds exactly one declaration.
-/

namespace TypeLang

inductive ParseError where
  | lex (e : LexError)
  /-- The name or a type of a declaration is faulty; `none` stands for name and result type. -/
  | type (declaration : String) (parameter : Option String) (fault : TypeFault)
  /-- A document is not the JSON of a schema. -/
  | json
  | jsonId (text : String)
  | missingJsonName (id : String)
  /-- The bytes of a schema could not be read. -/
  | io (reason : String)
  deriving DecidableEq, Repr

def ParseError.message : ParseError → String
  | .lex e => e.message
  | .type declaration parameter fault =>
    let place := match parameter with
      | some name => "parameter `" ++ name ++ "`"
      | none => "result type"
    "in `" ++ declaration ++ "`, " ++ place ++ ": " ++ fault.message
  | .json => "invalid JSON schema"
  | .jsonId text => "invalid JSON identifier `" ++ text ++ "`"
  | .missingJsonName id => "JSON entry with id `" ++ id ++ "` has no `predicate` or `method` name"
  | .io reason => "i/o error: " ++ reason

def TokenKind.describe : TokenKind → String
  | .sectionMark c => "---" ++ c.sectionName ++ "---"
  | .name text => text
  | .id value => "#" ++ Text.hex8 value
  | .typeParam v => "\x7b" ++ v ++ ":Type\x7d"
  | .paramsBegin => "parameters"
  | .paramName text => text
  | .paramType text => text
  | .paramsEnd => "end of parameters"
  | .resultType text => text

namespace DeclarationReader

def outOfPlace (token : Token) (expected : Expectation) : ParseError :=
  .lex ⟨.word token.kind.describe expected, token.position⟩

/-- The parts of a declaration read so far. Variables and parameters are held in reverse. -/
structure Draft where
  category : Category
  /-- The name as the schema spells it. -/
  spelling : String
  name : QualifiedName
  id : UInt32
  /-- The type variables. -/
  declared : List String
  params : List Parameter

def Draft.finish (d : Draft) (result : String) : Except ParseError Declaration :=
  match TypeExpr.parseResult d.category d.declared.reverse result with
  | .ok type => .ok ⟨d.category, d.id, d.name, d.params.reverse, type⟩
  | .error fault => .error (.type d.spelling none fault)

def Draft.addParam (d : Draft) (name type : String) : Except ParseError Draft :=
  match TypeExpr.parse d.category d.declared.reverse type with
  | .ok t => .ok { d with params := ⟨name, t⟩ :: d.params }
  | .error fault => .error (.type d.spelling (some name) fault)

/-- What a step of the reader gives, and the lexer behind it. -/
abbrev Step (α : Type) := Except ParseError α × Lexer

def expectToken (s : Lexer) : Step Token :=
  match s.nextToken with
  | .ok (some token) t => (.ok token, t)
  | .ok none t => (.error (.lex ⟨.endOfInput, t.position⟩), t)
  | .error e t => (.error (.lex e), t)

/-- The bytes and the pending tokens left: each token uses up some of them. -/
def Behind (t s : Lexer) : Prop :=
  t.remaining.length < s.remaining.length ∨
    t.remaining.length = s.remaining.length ∧ t.pending.length < s.pending.length

theorem Behind.trans {s t u : Lexer} (h₁ : Behind u t) (h₂ : Behind t s) : Behind u s := by
  unfold Behind at *
  omega

theorem behind_expectToken {s t : Lexer} {token : Token} (h : expectToken s = (.ok token, t)) :
    Behind t s := by
  unfold expectToken at h
  split at h
  · rename_i token' t' hnext
    simp only [Prod.mk.injEq, Except.ok.injEq] at h
    exact h.2 ▸ Lexer.nextToken_progress hnext
  · simp at h
  · simp at h

def body (d : Draft) (s : Lexer) : Step Declaration :=
  match _h : expectToken s with
  | (.error e, t) => (.error e, t)
  | (.ok token, t) =>
    match token.kind with
    | .typeParam name => body { d with declared := name :: d.declared } t
    | .paramsBegin => body d t
    | .paramsEnd => body d t
    | .paramName name =>
      match _ht : expectToken t with
      | (.error e, u) => (.error e, u)
      | (.ok next, u) =>
        match next.kind with
        | .paramType type =>
          match d.addParam name type with
          | .ok d => body d u
          | .error e => (.error e, u)
        | _ => (.error (outOfPlace next .parameterType), u)
    | .resultType type => (d.finish type, t)
    | _ => (.error (outOfPlace token .parameterOrResult), t)
termination_by (s.remaining.length, s.pending.length)
decreasing_by
  all_goals
    simp only [Prod.lex_def]
    first
    | exact behind_expectToken _h
    | exact (behind_expectToken _ht).trans (behind_expectToken _h)

def named (spelling : String) (s : Lexer) : Step Declaration :=
  match expectToken s with
  | (.error e, t) => (.error e, t)
  | (.ok token, t) =>
    match token.kind with
    | .id id =>
      match QualifiedName.parse? spelling.toList with
      | some name => body ⟨s.category, spelling, name, id, [], []⟩ t
      | none => (.error (.type spelling none (.name spelling)), t)
    | _ => (.error (outOfPlace token .identifier), t)

/-- Reads the next declaration; `none` at the end of the input. -/
def declaration? (s : Lexer) : Step (Option Declaration) :=
  match _h : s.nextToken with
  | .error e t => (.error (.lex e), t)
  | .ok none t => (.ok none, t)
  | .ok (some token) t =>
    match token.kind with
    | .sectionMark _ => declaration? t
    | .name spelling =>
      match named spelling t with
      | (.ok d, t) => (.ok (some d), t)
      | (.error e, t) => (.error e, t)
    | _ => (.error (outOfPlace token .declarationName), t)
termination_by (s.remaining.length, s.pending.length)
decreasing_by
  simp only [Prod.lex_def]
  exact Lexer.nextToken_progress _h

theorem behind_body {d : Draft} {s t : Lexer} {r : Declaration} (h : body d s = (.ok r, t)) :
    Behind t s := by
  fun_induction body d s with
  | case1 => simp at h
  | case2 d s t' token hfirst name hkind ih => exact (ih h).trans (behind_expectToken hfirst)
  | case3 d s t' token hfirst hkind ih => exact (ih h).trans (behind_expectToken hfirst)
  | case4 d s t' token hfirst hkind ih => exact (ih h).trans (behind_expectToken hfirst)
  | case5 => simp at h
  | case6 d s t' token hfirst name hkind u next hsecond type hnext d' hparam ih =>
    exact (ih h).trans ((behind_expectToken hsecond).trans (behind_expectToken hfirst))
  | case7 => simp at h
  | case8 => simp at h
  | case9 d s t' token hfirst type hkind =>
    simp only [Prod.mk.injEq] at h
    exact h.2 ▸ behind_expectToken hfirst
  | case10 => simp at h

theorem behind_named {spelling : String} {s t : Lexer} {r : Declaration}
    (h : named spelling s = (.ok r, t)) : Behind t s := by
  unfold named at h
  split at h
  · simp at h
  · rename_i token u hfirst
    split at h
    · split at h
      · exact (behind_body h).trans (behind_expectToken hfirst)
      · simp at h
    · simp at h

theorem behind_declaration? {s t : Lexer} {r : Declaration}
    (h : declaration? s = (.ok (some r), t)) : Behind t s := by
  fun_induction declaration? s with
  | case1 => simp at h
  | case2 => simp at h
  | case3 s token u hnext c hkind ih => exact (ih h).trans (Lexer.nextToken_progress hnext)
  | case4 s token u hnext spelling hkind r' v hnamed =>
    simp only [Prod.mk.injEq] at h
    exact h.2 ▸ (behind_named hnamed).trans (Lexer.nextToken_progress hnext)
  | case5 => simp at h
  | case6 => simp at h

end DeclarationReader

/-- A lexer whose tokens are read as declarations. -/
structure DeclarationReader where
  lexer : Lexer
  /-- Set by the end of the input and by the first error. -/
  finished : Bool := false

namespace DeclarationReader

def ofSource (source : List Delivery) : DeclarationReader :=
  { lexer := Lexer.ofSource source }

def ofBytes (bytes : List UInt8) : DeclarationReader :=
  { lexer := Lexer.ofBytes bytes }

def layer (r : DeclarationReader) : Option UInt32 :=
  r.lexer.layer

def next (r : DeclarationReader) : Option (Except ParseError Declaration) × DeclarationReader :=
  if r.finished then (none, r)
  else
    match declaration? r.lexer with
    | (.ok (some d), s) => (some (.ok d), ⟨s, false⟩)
    | (.ok none, s) => (none, ⟨s, true⟩)
    | (.error e, s) => (some (.error e), ⟨s, true⟩)

theorem behind_next {r t : DeclarationReader} {d : Declaration} (h : r.next = (some (.ok d), t)) :
    Behind t.lexer r.lexer := by
  unfold next at h
  split at h
  · simp at h
  · split at h
    · rename_i d' s hd
      simp only [Prod.mk.injEq] at h
      exact h.2 ▸ behind_declaration? hd
    · simp at h
    · simp at h

/-- Everything that the reader still gives, behind `done`, which holds the last item first, and the
reader at its end. -/
def itemsFrom (done : List (Except ParseError Declaration)) (r : DeclarationReader) :
    List (Except ParseError Declaration) × DeclarationReader :=
  match _h : r.next with
  | (none, t) => (done.reverse, t)
  | (some (.error e), t) => ((.error e :: done).reverse, t)
  | (some (.ok d), t) => itemsFrom (.ok d :: done) t
termination_by (r.lexer.remaining.length, r.lexer.pending.length)
decreasing_by
  simp only [Prod.lex_def]
  exact behind_next _h

def items (r : DeclarationReader) : List (Except ParseError Declaration) × DeclarationReader :=
  itemsFrom [] r

end DeclarationReader

namespace Declaration

/-- The text of a section that holds one declaration, whose `;` may be missing. -/
def sectionText (category : Category) (text : String) : String :=
  let statement := Text.dropEndWhile (· == ';') (Text.trimChars text.toList)
  let mark := match category with
    | .constructor => ""
    | .method => "---functions---\n"
  mark ++ String.ofList statement ++ ";"

/-- Reads the only declaration of a text. The final `;` may be missing. -/
def parse (category : Category) (text : String) : Except ParseError Declaration :=
  let reader := DeclarationReader.ofBytes (Text.toUtf8 (sectionText category text))
  match reader.next with
  | (none, _) => .error (.lex ⟨.endOfInput, .start⟩)
  | (some (.error e), _) => .error e
  | (some (.ok d), rest) =>
    match rest.next with
    | (none, _) => .ok d
    | (some (.error e), _) => .error e
    | (some (.ok extra), _) => .error (.lex ⟨.extraDeclaration extra.fullName, .start⟩)

end Declaration

end TypeLang
