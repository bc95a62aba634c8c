import TypeLang.Proofs.Outcome
import TypeLang.Proofs.Text.Spelled
import TypeLang.Proofs.Token.Location
import TypeLang.Proofs.Token.Spacing
import TypeLang.Proofs.Token.Spelling

/-!
# Identifier literals

What may follow the `#` in the first word of a declaration: hexadecimal digits, and a plus sign in
front of them, eight characters in all. Such a literal gives the number that the digits spell, and
every other one is a fault at the byte behind the `#` (`Lexer.Declares.idLiteral_exact`). The plus
sign is more than the digits that a literal should have (`Lexer.idLiteral_with_plus`).
-/

namespace TypeLang

/-! ## Literals -/

namespace Word

/-- The literal consists of the hexadecimal digits, or of a plus sign and the digits. -/
structure IdDigits (literal : String) (digits : List Char) : Prop where
  short : literal.length ≤ 8
  spelled : literal.toList = digits ∨ literal.toList = '+' :: digits
  ne_nil : digits ≠ []
  hexadecimal : ∀ c ∈ digits, c.isHexDigit = true

variable {literal : String} {digits : List Char}

theorem IdDigits.length_le (h : IdDigits literal digits) : digits.length ≤ 8 := by
  have hshort := h.short
  rw [← String.length_toList] at hshort
  rcases h.spelled with hspelled | hspelled
  · rwa [hspelled] at hshort
  · rw [hspelled, List.length_cons] at hshort
    omega

theorem IdDigits.exists_id (h : IdDigits literal digits) :
    ∃ id : UInt32, Text.IsHex id.toNat digits ∧ idLiteral? literal.toList = some id := by
  obtain ⟨n, hn, hhex⟩ := Text.exists_isHex h.ne_nil h.hexadecimal
  have hlt : n < 2 ^ 32 := by
    calc n < 16 ^ digits.length := hn
      _ ≤ 16 ^ 8 := Nat.pow_le_pow_right (by decide) h.length_le
      _ = 2 ^ 32 := by decide
  have hid : (UInt32.ofNat n).toNat = n := UInt32.toNat_ofNat_of_lt' hlt
  have hread := Text.digits?_of_isHex hhex
  rw [← hid] at hhex hread
  refine ⟨UInt32.ofNat n, hhex, ?_⟩
  rw [idLiteral?_eq, if_pos (by rw [String.length_toList]; exact h.short)]
  rcases h.spelled with hspelled | hspelled
  · rw [hspelled, Text.uint32?_of_digits hread]
  · rw [hspelled, Text.uint32?_plus hread]

theorem exists_idDigits {id : UInt32} (h : idLiteral? literal.toList = some id) :
    ∃ digits, IdDigits literal digits := by
  rw [idLiteral?_eq] at h
  split at h
  · rename_i hshort
    rw [String.length_toList] at hshort
    obtain ⟨digits, hspelled, hread⟩ := Text.exists_digits?_of_uint32? h
    refine ⟨digits, hshort, hspelled, ?_, fun c hc => ?_⟩
    · rintro rfl
      cases hread
    · obtain ⟨d, hd⟩ := Text.exists_digit?_of_digits? hread c hc
      rw [← Text.isSome_digit?, hd]
      rfl
  · cases h

end Word

/-! ## Faults behind the identifier -/

namespace Statement

def NamesWord (e : LexError) : Prop :=
  ∃ found expected, e.fault = .word found expected

theorem namesWord_of_parameterTokens {w : Word} {e : LexError}
    (h : w.parameterTokens = .error e) : NamesWord e := by
  unfold Word.parameterTokens at h
  split at h
  · split at h
    · cases h
      exact ⟨_, _, rfl⟩
    · cases h
  · cases h
    exact ⟨_, _, rfl⟩

theorem namesWord_of_resultTokens {stop : Position} {words : List Word} {e : LexError}
    (h : resultTokens stop words = .error e) : NamesWord e := by
  unfold resultTokens at h
  split at h
  · cases h
    exact ⟨_, _, rfl⟩
  · split at h
    · cases h
      exact ⟨_, _, rfl⟩
    · cases h

theorem namesWord_of_laterTokens {stop : Position} {words : List Word} {e : LexError}
    (h : laterTokens stop words = .error e) : NamesWord e := by
  induction words with
  | nil =>
      cases h
      exact ⟨_, _, rfl⟩
  | cons w rest ih =>
      rw [laterTokens] at h
      split at h
      · cases hresult : resultTokens stop rest with
        | ok tokens =>
            rw [hresult] at h
            cases h
        | error e' =>
            rw [hresult] at h
            cases h
            exact namesWord_of_resultTokens hresult
      · rcases bind_eq_error.mp h with h | ⟨parameter, -, h⟩
        · exact namesWord_of_parameterTokens h
        rcases bind_eq_error.mp h with h | ⟨later, -, h⟩
        · exact ih h
        · cases h

theorem namesWord_of_bodyTokens {stop : Position} {words : List Word} {e : LexError}
    (h : bodyTokens stop words = .error e) : NamesWord e := by
  fun_induction bodyTokens stop words with
  | case1 =>
      cases h
      exact ⟨_, _, rfl⟩
  | case2 => exact namesWord_of_resultTokens h
  | case3 =>
      cases h
      exact ⟨_, _, rfl⟩
  | case4 => exact namesWord_of_resultTokens h
  | case5 w rest _ _ _ ih => exact ih h
  | case6 w rest _ _ _ _ variableName _ ih =>
      rcases bind_eq_error.mp h with h | ⟨later, -, h⟩
      · exact ih h
      · cases h
  | case7 =>
      cases h
      exact ⟨_, _, rfl⟩
  | case8 w rest =>
      rcases bind_eq_error.mp h with h | ⟨parameter, -, h⟩
      · exact namesWord_of_parameterTokens h
      rcases bind_eq_error.mp h with h | ⟨later, -, h⟩
      · exact namesWord_of_laterTokens h
      · cases h

theorem tokens_of_headText {name literal : String} (hname : name ≠ "")
    (hhash : '#' ∉ name.toList) (position stop : Position) (rest : List Word) :
    tokens ⟨⟨Spelling.headText name literal, position⟩ :: rest, stop⟩ =
      match Word.idLiteral? literal.toList with
      | some id => do
        let body ← bodyTokens stop rest
        return ⟨.name name, position⟩ ::
          ⟨.id id, position.skip (name.utf8ByteSize + 1)⟩ :: body
      | none => .error ⟨.idLiteral literal, position.skip (name.utf8ByteSize + 1)⟩ := by
  have hempty : name.toList.isEmpty = false := by
    rwa [List.isEmpty_eq_false_iff, ne_eq, String.toList_eq_nil_iff]
  have hlength : Word.byteLength name.toList = name.utf8ByteSize := by
    rw [Word.byteLength, String.ofList_toList]
  unfold tokens
  cases hid : Word.idLiteral? literal.toList with
  | none =>
      simp only [Spelling.toList_headText, Text.splitFirst_append hhash, hempty, Bool.false_eq_true,
        if_false, String.ofList_toList, hlength, hid]
  | some id =>
      simp only [Spelling.toList_headText, Text.splitFirst_append hhash, hempty, Bool.false_eq_true,
        if_false, String.ofList_toList, hlength, hid]

end Statement

/-! ## Lexing -/

namespace Lexer

open Scan

/-- The lexer is about to read a declaration whose first word, at `start`, is `name#literal`. The
word must not look like a section mark or a comment. -/
structure Declares (s : Lexer) (name literal : String) (start : Position) : Prop where
  pending : s.pending = []
  failed : s.failed = false
  delivered : Delivery.failure? s.feed.source = none
  name_ne_empty : name ≠ ""
  name_no_hash : '#' ∉ name.toList
  name_head : ∀ c, name.toList.head? = some c → c ≠ '-' ∧ c ≠ '/'
  lexeme : IsLexeme (Spelling.headText name literal)
  writes : ∃ trivia texts bytes more, Trivia trivia ∧ WritesWords true texts bytes ∧
    start = s.position.afterAll trivia ∧
    s.remaining = trivia ++ (Text.toUtf8 (Spelling.headText name literal) ++ (bytes ++ more))

/-- A call gives the name, and the identifier is the next token, unless there is a fault that has
nothing to do with the literal. -/
def Identifies (name : Token) (id : Token) : EStateM.Result LexError Lexer (Option Token) → Prop
  | .ok token t => token = some name ∧ t.pending.head? = some id
  | .error e _ => ∀ literal, e.fault ≠ .idLiteral literal

theorem statement_facing_lexeme {text : String} (h : IsLexeme text) {texts : List String}
    {bytes : List UInt8} (hlater : WritesWords true texts bytes) (s : Lexer) (rest : List UInt8)
    (p : Position) : ∃ words stop p',
      statement (s.facing (Text.toUtf8 text ++ (bytes ++ rest)) p) =
        .ok ⟨⟨text, p⟩ :: words, stop⟩ (s.facing rest p') := by
  have hread := nextWord_facing_lexeme h [] (List.forall_mem_nil _) (hlater.endsWord rest) s p
  obtain ⟨words, stop, p', -, hrest⟩ :=
    wordsFrom_writes hlater [⟨text, p⟩] s rest (p.afterAll (Text.toUtf8 text))
  refine ⟨words, stop, p', ?_⟩
  rw [List.nil_append] at hread
  rw [statement, wordsFrom_eq, hread]
  simp only [h.ne_stop, if_false]
  exact hrest

namespace Declares

variable {s : Lexer} {name literal : String} {start : Position}

theorem nextGroup_statement (h : s.Declares name literal start) : ∃ words stop t,
    nextGroup s.whole =
      match Statement.tokens ⟨⟨Spelling.headText name literal, start⟩ :: words, stop⟩ with
      | .error e => .error e t
      | .ok [] => nextGroup t
      | .ok (token :: later) => .ok (some token) { t with pending := later } := by
  obtain ⟨trivia, texts, bytes, more, htrivia, hlater, rfl, hremaining⟩ := h.writes
  have hwhole : s.whole = s.facing s.remaining s.position := by
    simp only [whole, Feed.whole, Delivery.ending, h.delivered, facing]
    rfl
  obtain ⟨layer, hskip⟩ := nextGroup_trivia htrivia s
    (Text.toUtf8 (Spelling.headText name literal) ++ (bytes ++ more)) s.position
  obtain ⟨words, stop, p', hstatement⟩ :=
    statement_facing_lexeme h.lexeme hlater { s with layer } more (s.position.afterAll trivia)
  obtain ⟨b, tail, hfirst, hword, hdash, hslash⟩ := exists_first_byte h.lexeme (by
    rw [Spelling.head?_headText literal h.name_ne_empty]
    exact h.name_head)
  refine ⟨words, stop, { s with layer }.facing more p', ?_⟩
  rw [hwhole, hremaining, hskip]
  rw [hfirst] at hstatement ⊢
  exact nextGroup_facing_statement (not_blank_of_isWordByte hword) hdash hslash hstatement

theorem afterAll_name (h : s.Declares name literal start) :
    start.afterAll (Text.toUtf8 (name ++ "#")) = start.skip (name.utf8ByteSize + 1) := by
  have hline : 0x0a ∉ Text.toUtf8 (name ++ "#") := by
    intro hmem
    have hword := isWordByte_of_mem_toUtf8 h.lexeme 0x0a (by
      rw [Spelling.headText, Text.toUtf8_append]
      exact List.mem_append_left _ hmem)
    rw [isWordByte_lineFeed] at hword
    cases hword
  rw [Position.afterAll_eq_skip hline, Text.length_toUtf8, String.utf8ByteSize_append]
  rfl

theorem nextToken_literal (h : s.Declares name literal start) :
    let place := start.afterAll (Text.toUtf8 (name ++ "#"))
    match Word.idLiteral? literal.toList with
    | some id => Identifies ⟨.name name, start⟩ ⟨.id id, place⟩ (nextToken s)
    | none => ∃ t, nextToken s = .error ⟨.idLiteral literal, place⟩ t := by
  obtain ⟨words, stop, t, hgroup⟩ := h.nextGroup_statement
  have hwhole := nextToken_whole s
  rw [nextToken_of_nextGroup (s := s.whole) h.pending h.failed, hgroup,
    Statement.tokens_of_headText h.name_ne_empty h.name_no_hash, ← h.afterAll_name] at hwhole
  cases hid : Word.idLiteral? literal.toList with
  | none =>
      simp only [hid] at hwhole
      obtain ⟨u, hu, -⟩ := eq_error_of_mapLexer hwhole.symm
      exact ⟨u, hu⟩
  | some id =>
      simp only [hid] at hwhole
      cases hbody : Statement.bodyTokens stop words with
      | error e =>
          simp only [hbody] at hwhole
          obtain ⟨u, hu, -⟩ := eq_error_of_mapLexer hwhole.symm
          obtain ⟨found, expected, hword⟩ := Statement.namesWord_of_bodyTokens hbody
          dsimp only
          rw [hu]
          intro other hother
          rw [hword] at hother
          cases hother
      | ok body =>
          simp only [hbody] at hwhole
          obtain ⟨u, hu, hbehind⟩ := eq_ok_of_mapLexer hwhole.symm
          dsimp only
          rw [hu]
          refine ⟨rfl, ?_⟩
          change u.whole.pending.head? = _
          rw [hbehind]
          rfl

/-- Hexadecimal digits are the identifier, also behind a plus sign if there are eight characters at
most. Every other literal is a fault at its first byte. -/
theorem idLiteral_exact (h : s.Declares name literal start) :
    let place := start.afterAll (Text.toUtf8 (name ++ "#"))
    (∀ digits, Word.IdDigits literal digits → ∃ id : UInt32, Text.IsHex id.toNat digits ∧
      Identifies ⟨.name name, start⟩ ⟨.id id, place⟩ (nextToken s)) ∧
    ((¬∃ digits, Word.IdDigits literal digits) →
      ∃ t, nextToken s = .error ⟨.idLiteral literal, place⟩ t) := by
  have hnext := h.nextToken_literal
  refine ⟨fun digits hdigits => ?_, fun hno => ?_⟩
  · obtain ⟨id, hhex, hid⟩ := hdigits.exists_id
    rw [hid] at hnext
    exact ⟨id, hhex, hnext⟩
  · cases hid : Word.idLiteral? literal.toList with
    | none =>
        rw [hid] at hnext
        exact hnext
    | some id => exact absurd (Word.exists_idDigits hid) hno

end Declares

theorem declares_line {name literal : String} (hname : IsPart name) (hhash : '#' ∉ name.toList)
    (hhead : ∀ c, name.toList.head? = some c → c ≠ '-' ∧ c ≠ '/')
    (hliteral : ∀ c ∈ literal.toList, isPlain c = true) {texts : List String}
    (htexts : ∀ text ∈ texts, IsWord text) :
    (ofBytes (Text.toUtf8 (line (Spelling.headText name literal :: texts)))).Declares
      name literal .start where
  pending := rfl
  failed := rfl
  delivered := by
    rw [toUtf8_line]
    cases Text.toUtf8 (Spelling.headText name literal) ++ _ <;> rfl
  name_ne_empty := hname.ne_empty
  name_no_hash := hhash
  name_head := hhead
  lexeme := Spelling.isLexeme_headText hname hliteral
  writes := by
    refine ⟨[], texts, spaced texts ++ [0x3b], [], .nil, writesWords_spaced htexts, rfl, ?_⟩
    rw [toUtf8_line, List.append_nil, List.nil_append]
    cases Text.toUtf8 (Spelling.headText name literal) ++ _ with
    | nil => rfl
    | cons b more => exact congrArg (b :: ·) (List.append_nil more)

/-- Digits in letters of either case, and a letter that is no digit. -/
theorem idLiteral_exact_beef :
    Identifies ⟨.name "a", .start⟩ ⟨.id 0xbeef, ⟨2, 1, 3⟩⟩
        (nextToken (ofBytes (Text.toUtf8 "a#0bEeF = A;"))) ∧
      ∃ t, nextToken (ofBytes (Text.toUtf8 "a#beeg = A;")) =
        .error ⟨.idLiteral "beeg", ⟨2, 1, 3⟩⟩ t := by
  have hname : IsPart "a" := by decide
  have hhead : ∀ c, "a".toList.head? = some c → c ≠ '-' ∧ c ≠ '/' := by
    rintro c ⟨⟩
    decide
  have htexts : ∀ text ∈ ["=", "A"], IsWord text :=
    List.forall_mem_cons.mpr ⟨.inl rfl, List.forall_mem_singleton.mpr (IsPart.isWord (by decide))⟩
  constructor
  · have hline : line [Spelling.headText "a" "0bEeF", "=", "A"] = "a#0bEeF = A;" := by decide
    have hplain : ∀ c ∈ "0bEeF".toList, isPlain c = true := List.all_eq_true.mp (by decide)
    have hdeclares := declares_line hname (by decide) hhead hplain htexts
    rw [hline] at hdeclares
    obtain ⟨id, hhex, hnext⟩ := hdeclares.idLiteral_exact.1 "0bEeF".toList
      ⟨by decide, .inl rfl, by decide, List.all_eq_true.mp (by decide)⟩
    have hvalue : Text.digits? 16 "0bEeF".toList = some 0xbeef := by decide
    obtain rfl : id = 0xbeef := by
      rw [Text.digits?_of_isHex hhex] at hvalue
      exact UInt32.toNat_inj.mp (Option.some.inj hvalue)
    exact hnext
  · have hline : line [Spelling.headText "a" "beeg", "=", "A"] = "a#beeg = A;" := by decide
    have hplain : ∀ c ∈ "beeg".toList, isPlain c = true := List.all_eq_true.mp (by decide)
    have hdeclares := declares_line hname (by decide) hhead hplain htexts
    rw [hline] at hdeclares
    refine hdeclares.idLiteral_exact.2 ?_
    rintro ⟨digits, -, hspelled, -, hhex⟩
    have hg : 'g' ∈ digits := by
      rcases hspelled with h | h
      · rw [← h]
        decide
      · cases h
    exact absurd (hhex 'g' hg) (by decide)

/-- A plus sign is no digit, and yet a literal may start with one. -/
theorem idLiteral_with_plus :
    '+'.isHexDigit = false ∧ (ofBytes (Text.toUtf8 "a#+1 = A;")).outcome =
      ⟨[.name "a", .id 1, .resultType "A"], none⟩ := by
  have htexts : ∀ text ∈ ["a#+1", "=", "A"], IsWord text :=
    List.forall_mem_cons.mpr ⟨IsPart.isWord (by decide), List.forall_mem_cons.mpr
      ⟨.inl rfl, List.forall_mem_singleton.mpr (IsPart.isWord (by decide))⟩⟩
  have hwrites : WritesWords false ["a#+1", "=", "A"] (Text.toUtf8 "a#+1 = A;") :=
    writesWords_line htexts
  have hfirst : ∀ word c, ["a#+1", "=", "A"].head? = some word → word.toList.head? = some c →
      c ≠ '-' ∧ c ≠ '/' := by
    rintro word c ⟨⟩ ⟨⟩
    decide
  have hstart : ∀ b, (Text.toUtf8 "a#+1 = A;").head? = some b → isGap b = false := by
    rintro b ⟨⟩
    rfl
  have hitems : WritesItems [.declaration ["a#+1", "=", "A"]]
      (Delivery.bytes [.chunk (Text.toUtf8 "a#+1 = A;")]) :=
    .cons .nil (.declaration hwrites hfirst hstart) (.nil .nil)
  refine ⟨by decide, ?_⟩
  rw [ofBytes, outcome_ofSource Feed.defaultCapacity hitems rfl]
  rfl

end Lexer

end TypeLang
