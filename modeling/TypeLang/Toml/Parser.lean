import TypeLang.Toml.Scalar

/-!
# Reading TOML

`Toml.parse?` reads a document. Each reader takes a text and gives what it read from the start
together with the rest.
-/

namespace TypeLang.Toml

/-! ## Blanks and comments -/

def isSpace (c : Char) : Bool :=
  c == ' ' || c == '\t'

def skipSpace (cs : List Char) : List Char :=
  cs.dropWhile isSpace

/-- May stand in a comment or in a literal text: no control character but the tab. -/
def isPlain (c : Char) : Bool :=
  c == '\t' || (0x20 ≤ c.toNat && c.toNat ≠ 0x7f)

def skipLines? (inComment : Bool) : List Char → Option (List Char)
  | [] => some []
  | '\n' :: rest => skipLines? false rest
  | '\r' :: '\n' :: rest => skipLines? false rest
  | c :: rest =>
    if inComment then if isPlain c then skipLines? true rest else none
    else if isSpace c then skipLines? false rest
    else if c = '#' then skipLines? true rest
    else some (c :: rest)

/-- Skips the rest of a line, which holds at most blanks and a comment. -/
def endLine? (inComment : Bool) : List Char → Option (List Char)
  | [] => some []
  | '\n' :: rest => some rest
  | '\r' :: '\n' :: rest => some rest
  | c :: rest =>
    if inComment then if isPlain c then endLine? true rest else none
    else if isSpace c then endLine? false rest
    else if c = '#' then endLine? true rest
    else none

/-! ## Strings -/

def escaped? (c : Char) : Option Char :=
  match c with
  | 'b' => some '\x08'
  | 't' => some '\t'
  | 'n' => some '\n'
  | 'f' => some '\x0c'
  | 'r' => some '\r'
  | 'e' => some '\x1b'
  | '"' => some '"'
  | '\\' => some '\\'
  | _ => none

def codePoint? (digits : List Char) : Option Char := do
  let n ← Text.digits? 16 digits
  if n.isValidChar then return Char.ofNat n else none

def quoted? : List Char → Option (List Char × List Char)
  | [] => none
  | '"' :: rest => some ([], rest)
  | '\\' :: 'x' :: a :: b :: rest => do
    let head ← codePoint? [a, b]
    let (text, rest) ← quoted? rest
    return (head :: text, rest)
  | '\\' :: 'u' :: a :: b :: c :: d :: rest => do
    let head ← codePoint? [a, b, c, d]
    let (text, rest) ← quoted? rest
    return (head :: text, rest)
  | '\\' :: 'U' :: a :: b :: c :: d :: e :: f :: g :: h :: rest => do
    let head ← codePoint? [a, b, c, d, e, f, g, h]
    let (text, rest) ← quoted? rest
    return (head :: text, rest)
  | '\\' :: e :: rest => do
    let head ← escaped? e
    let (text, rest) ← quoted? rest
    return (head :: text, rest)
  | c :: rest =>
    if isPlain c ∧ c ≠ '\\' then do
      let (text, rest) ← quoted? rest
      return (c :: text, rest)
    else none

def literal? : List Char → Option (List Char × List Char)
  | [] => none
  | '\'' :: rest => some ([], rest)
  | c :: rest =>
    if isPlain c then do
      let (text, rest) ← literal? rest
      return (c :: text, rest)
    else none

/-- Only blanks stand in front of the next line break. -/
def endsLine (cs : List Char) : Bool :=
  match skipSpace cs with
  | '\n' :: _ => true
  | '\r' :: '\n' :: _ => true
  | _ => false

/-- Reads a quoted text of several lines behind its three opening quotes, and the three closing
ones, in front of which up to two quotes belong to the text. A backslash at the end of a line drops
the blanks and line breaks up to the next character, which `joining` tells. -/
def quotedLines? (joining : Bool) : List Char → Option (List Char × List Char)
  | [] => none
  | '"' :: '"' :: '"' :: '"' :: '"' :: rest => some (['"', '"'], rest)
  | '"' :: '"' :: '"' :: '"' :: rest => some (['"'], rest)
  | '"' :: '"' :: '"' :: rest => some ([], rest)
  | '\\' :: 'x' :: a :: b :: rest => do
    let head ← codePoint? [a, b]
    let (text, rest) ← quotedLines? false rest
    return (head :: text, rest)
  | '\\' :: 'u' :: a :: b :: c :: d :: rest => do
    let head ← codePoint? [a, b, c, d]
    let (text, rest) ← quotedLines? false rest
    return (head :: text, rest)
  | '\\' :: 'U' :: a :: b :: c :: d :: e :: f :: g :: h :: rest => do
    let head ← codePoint? [a, b, c, d, e, f, g, h]
    let (text, rest) ← quotedLines? false rest
    return (head :: text, rest)
  | '\\' :: e :: rest =>
    if endsLine (e :: rest) then quotedLines? true (e :: rest)
    else do
      let head ← escaped? e
      let (text, rest) ← quotedLines? false rest
      return (head :: text, rest)
  | '\r' :: '\n' :: rest =>
    if joining then quotedLines? true rest
    else do
      let (text, rest) ← quotedLines? false rest
      return ('\r' :: '\n' :: text, rest)
  | c :: rest =>
    if joining ∧ (isSpace c ∨ c = '\n') then quotedLines? true rest
    else if (isPlain c ∨ c = '\n') ∧ c ≠ '\\' then do
      let (text, rest) ← quotedLines? false rest
      return (c :: text, rest)
    else none

/-- Reads a literal text of several lines behind its three opening apostrophes, and the three
closing ones, in front of which up to two belong to the text. -/
def literalLines? : List Char → Option (List Char × List Char)
  | [] => none
  | '\'' :: '\'' :: '\'' :: '\'' :: '\'' :: rest => some (['\'', '\''], rest)
  | '\'' :: '\'' :: '\'' :: '\'' :: rest => some (['\''], rest)
  | '\'' :: '\'' :: '\'' :: rest => some ([], rest)
  | '\r' :: '\n' :: rest => do
    let (text, rest) ← literalLines? rest
    return ('\r' :: '\n' :: text, rest)
  | c :: rest =>
    if isPlain c ∨ c = '\n' then do
      let (text, rest) ← literalLines? rest
      return (c :: text, rest)
    else none

/-- A line break right behind the opening of a text of several lines is no part of it. -/
def dropBreak (cs : List Char) : List Char :=
  match cs with
  | '\n' :: rest => rest
  | '\r' :: '\n' :: rest => rest
  | _ => cs

/-! ## Keys -/

def isKeyChar (c : Char) : Bool :=
  c.isAlphanum || c == '-' || c == '_'

/-- Brackets and braces are nested no deeper, and keys have no more parts. -/
def maxNesting : Nat := 80

def keyPart? : List Char → Option (String × List Char)
  | '"' :: rest => (quoted? rest).map fun (text, rest) => (String.ofList text, rest)
  | '\'' :: rest => (literal? rest).map fun (text, rest) => (String.ofList text, rest)
  | cs =>
    match cs.takeWhile isKeyChar with
    | [] => none
    | part => some (String.ofList part, cs.dropWhile isKeyChar)

/-- Reads a dotted key of at most `limit` parts, and the blanks behind it. The last part comes
apart. -/
def key? : (limit : Nat) → List Char → Option (List String × String × List Char)
  | 0, _ => none
  | limit + 1, cs => do
    let (part, rest) ← keyPart? cs
    match skipSpace rest with
    | '.' :: rest => do
      let (path, last, rest) ← key? limit (skipSpace rest)
      return (part :: path, last, rest)
    | rest => return ([], part, rest)

/-! ## Values -/

def isScalarChar (c : Char) : Bool :=
  c.isAlphanum || c == '+' || c == '-' || c == '_' || c == '.' || c == ':'

/-- Reads a value without quotes and brackets. Between a date and a time stands one blank. -/
def bare? (cs : List Char) : Option (Toml × List Char) :=
  let first := cs.takeWhile isScalarChar
  let rest := cs.dropWhile isScalarChar
  let (text, rest) := match rest with
    | ' ' :: c :: more =>
      if isDate first && c.isDigit then
        (first ++ ' ' :: (c :: more).takeWhile isScalarChar, (c :: more).dropWhile isScalarChar)
      else (first, rest)
    | _ => (first, rest)
  (scalar? text).map fun value => (value, rest)

mutual

/-- Reads a value. Brackets and braces in it may be nested `nesting` deep. -/
def value? : (fuel nesting : Nat) → List Char → Option (Toml × List Char)
  | 0, _, _ => none
  | fuel + 1, nesting, cs =>
    match cs with
    | '"' :: '"' :: '"' :: rest =>
      (quotedLines? false (dropBreak rest)).map fun (text, rest) => (.string (String.ofList text), rest)
    | '"' :: rest => (quoted? rest).map fun (text, rest) => (.string (String.ofList text), rest)
    | '\'' :: '\'' :: '\'' :: rest =>
      (literalLines? (dropBreak rest)).map fun (text, rest) => (.string (String.ofList text), rest)
    | '\'' :: rest => (literal? rest).map fun (text, rest) => (.string (String.ofList text), rest)
    | '[' :: rest =>
      if nesting = 0 then none
      else (items? fuel (nesting - 1) rest).map fun (items, rest) => (.array false items, rest)
    | '\x7b' :: rest =>
      if nesting = 0 then none
      else (members? fuel (nesting - 1) [] rest).map fun (entries, rest) =>
        (.table .inline entries, rest)
    | cs => bare? cs

/-- Reads the items of an array behind its bracket or a comma, and the closing bracket. -/
def items? : (fuel nesting : Nat) → List Char → Option (List Toml × List Char)
  | 0, _, _ => none
  | fuel + 1, nesting, cs => do
    match ← skipLines? false cs with
    | ']' :: rest => return ([], rest)
    | cs => do
      let (item, rest) ← value? fuel nesting cs
      match ← skipLines? false rest with
      | ']' :: rest => return ([item], rest)
      | ',' :: rest => do
        let (items, rest) ← items? fuel nesting rest
        return (item :: items, rest)
      | _ => none

/-- Reads the entries of a table in braces, behind the brace or a comma, and the closing brace. The
entries so far are `done`. Lines may be broken anywhere but within a dotted key. -/
def members? : (fuel nesting : Nat) → (done : Entries) → List Char →
    Option (Entries × List Char)
  | 0, _, _, _ => none
  | fuel + 1, nesting, done, cs => do
    match ← skipLines? false cs with
    | '\x7d' :: rest => return (done, rest)
    | cs => do
      let (path, key, rest) ← key? maxNesting cs
      match ← skipLines? false rest with
      | '=' :: rest => do
        let (value, rest) ← value? fuel nesting (← skipLines? false rest)
        let (_, done) ← insert? path key value .inline done
        match ← skipLines? false rest with
        | '\x7d' :: rest => return (done, rest)
        | ',' :: rest => members? fuel nesting done rest
        | _ => none
      | _ => none

end

/-! ## Documents -/

/-- What was read of a document: all tables so far, and the path of the one that the next lines
belong to. -/
structure Draft where
  root : Entries
  header : List String

namespace Draft

def change? (d : Draft) (header : List String)
    (change : TableOrigin → Entries → Option (TableOrigin × Entries)) : Option Draft :=
  (change .header d.root).map fun (_, root) => ⟨root, header⟩

def insert? (d : Draft) (path : List String) (key : String) (value : Toml) : Option Draft :=
  d.change? d.header (update? .implied (Toml.insert? path key value) d.header)

end Draft

def lines? : (limit : Nat) → Draft → List Char → Option Draft
  | 0, _, _ => none
  | limit + 1, draft, cs => do
    match ← skipLines? false cs with
    | [] => return draft
    | '[' :: '[' :: rest => do
      let (path, key, rest) ← key? maxNesting (skipSpace rest)
      match rest with
      | ']' :: ']' :: rest => do
        lines? limit (← draft.change? (path ++ [key]) (openItem? path key)) (← endLine? false rest)
      | _ => none
    | '[' :: rest => do
      let (path, key, rest) ← key? maxNesting (skipSpace rest)
      match rest with
      | ']' :: rest => do
        lines? limit (← draft.change? (path ++ [key]) (openTable? path key)) (← endLine? false rest)
      | _ => none
    | cs => do
      let (path, key, rest) ← key? maxNesting cs
      match rest with
      | '=' :: rest => do
        let (value, rest) ← value? limit maxNesting (skipSpace rest)
        lines? limit (← draft.insert? path key value) (← endLine? false rest)
      | _ => none

/-- Reads a document, which may start with a byte order mark. Every line, item and entry takes some
of its characters. -/
def parse? (text : String) : Option Toml :=
  let cs := match text.toList with
    | '\uFEFF' :: rest => rest
    | cs => cs
  (lines? (cs.length + 1) ⟨[], []⟩ cs).map fun draft => .table .header draft.root

end TypeLang.Toml
