import TypeLang.Proofs.Text.Cut
import TypeLang.Proofs.Text.Digits
import TypeLang.Proofs.Token.Line

/-!
# Reading what is spelled

A signature is written on one line: its name and identifier, a block for each variable, its
parameters and its result. If the parts are legible (`Spelling.Legible`), the tokens of the line are
those of the signature (`Statement.tokens_of_spelling`).
-/

namespace TypeLang

/-! ## Signatures as words -/

/-- A text that may be written as a part of a declaration: plain characters, and no colon. -/
structure IsPart (text : String) : Prop where
  ne_empty : text ≠ ""
  plain : ∀ c ∈ text.toList, isPlain c = true
  no_colon : ':' ∉ text.toList

instance (text : String) : Decidable (IsPart text) :=
  decidable_of_iff
    (text ≠ "" ∧ text.toList.all isPlain = true ∧ ':' ∉ text.toList)
    ⟨fun ⟨ne_empty, plain, no_colon⟩ => ⟨ne_empty, List.all_eq_true.mp plain, no_colon⟩,
      fun h => ⟨h.ne_empty, List.all_eq_true.mpr h.plain, h.no_colon⟩⟩

theorem IsPart.isWord {text : String} (h : IsPart text) : IsWord text :=
  .inr ⟨h.ne_empty, h.plain⟩

theorem IsPart.ne_equals {text : String} (h : IsPart text) : text ≠ "=" := by
  rintro rfl
  exact absurd (h.plain '=' (by decide)) (by decide)

theorem IsPart.toList_ne_nil {text : String} (h : IsPart text) : text.toList ≠ [] := by
  rw [ne_eq, String.toList_eq_nil_iff]
  exact h.ne_empty

structure Spelling where
  name : String
  literal : String
  vars : List String
  params : List (String × String)
  results : List String

namespace Spelling

def headText (name literal : String) : String :=
  name ++ "#" ++ literal

def blockText (v : String) : String :=
  "\x7b" ++ v ++ ":Type\x7d"

def paramText (param : String × String) : String :=
  param.1 ++ ":" ++ param.2

def bodyWords (sp : Spelling) : List String :=
  sp.vars.map blockText ++ (sp.params.map paramText ++ "=" :: sp.results)

def words (sp : Spelling) : List String :=
  headText sp.name sp.literal :: sp.bodyWords

def signature (sp : Spelling) (id : UInt32) : Signature :=
  ⟨sp.name, id, sp.vars, sp.params, " ".intercalate sp.results⟩

/-- What is written can be read again. The name must not look like a section mark or a comment, and
the first parameter not like a block. -/
structure Legible (sp : Spelling) : Prop where
  name : IsPart sp.name
  name_no_hash : '#' ∉ sp.name.toList
  name_head : ∀ c, sp.name.toList.head? = some c → c ≠ '-' ∧ c ≠ '/'
  literal : ∀ c ∈ sp.literal.toList, isPlain c = true
  vars : ∀ v ∈ sp.vars, IsPart v
  params : ∀ param ∈ sp.params, IsPart param.1 ∧ IsPart param.2
  params_head : ∀ param, sp.params.head? = some param → param.1.toList.head? ≠ some '{'
  results_ne_nil : sp.results ≠ []
  results : ∀ text ∈ sp.results, IsPart text

theorem toList_headText (name literal : String) :
    (headText name literal).toList = name.toList ++ '#' :: literal.toList := by
  simp [headText]

theorem head?_headText {name : String} (literal : String) (h : name ≠ "") :
    (headText name literal).toList.head? = name.toList.head? := by
  rw [toList_headText, List.head?_append_of_ne_nil]
  rwa [ne_eq, String.toList_eq_nil_iff]

theorem toList_blockText (v : String) :
    (blockText v).toList = '{' :: (v.toList ++ ':' :: "Type\x7d".toList) := by
  simp [blockText]

theorem toList_paramText (param : String × String) :
    (paramText param).toList = param.1.toList ++ ':' :: param.2.toList := by
  simp [paramText]

theorem isWord_of_mark {text : String} (front : List Char) {back : List Char} {mark : Char}
    (h : text.toList = front ++ mark :: back) (hmark : isPlain mark = true)
    (hfront : ∀ c ∈ front, isPlain c = true) (hback : ∀ c ∈ back, isPlain c = true) :
    IsWord text := by
  refine .inr ⟨?_, ?_⟩
  · rw [ne_eq, ← String.toList_eq_nil_iff, h]
    simp
  · rw [h]
    intro c hc
    rcases List.mem_append.mp hc with hc | hc
    · exact hfront c hc
    rcases List.mem_cons.mp hc with rfl | hc
    · exact hmark
    · exact hback c hc

theorem isWord_headText {name literal : String} (hname : IsPart name)
    (hliteral : ∀ c ∈ literal.toList, isPlain c = true) : IsWord (headText name literal) :=
  isWord_of_mark name.toList (toList_headText name literal) (by decide) hname.plain hliteral

theorem isLexeme_headText {name literal : String} (hname : IsPart name)
    (hliteral : ∀ c ∈ literal.toList, isPlain c = true) : IsLexeme (headText name literal) := by
  refine (isWord_headText hname hliteral).eq_or_isLexeme.resolve_left fun hequals => ?_
  have hhash : '#' ∈ "=".toList := by
    rw [← hequals, toList_headText]
    exact List.mem_append_right _ List.mem_cons_self
  exact absurd hhash (by decide)

theorem isWord_blockText {v : String} (h : IsPart v) : IsWord (blockText v) :=
  isWord_of_mark ('{' :: v.toList) (toList_blockText v) (by decide)
    (List.forall_mem_cons.mpr ⟨by decide, h.plain⟩) (List.all_eq_true.mp (by decide))

theorem isWord_paramText {param : String × String} (h : IsPart param.1 ∧ IsPart param.2) :
    IsWord (paramText param) :=
  isWord_of_mark param.1.toList (toList_paramText param) (by decide) h.1.plain h.2.plain

theorem Legible.isWord {sp : Spelling} (h : sp.Legible) : ∀ text ∈ sp.words, IsWord text := by
  intro text htext
  rcases List.mem_cons.mp htext with rfl | htext
  · exact isWord_headText h.name h.literal
  rcases List.mem_append.mp htext with htext | htext
  · obtain ⟨v, hv, rfl⟩ := List.mem_map.mp htext
    exact isWord_blockText (h.vars v hv)
  rcases List.mem_append.mp htext with htext | htext
  · obtain ⟨param, hparam, rfl⟩ := List.mem_map.mp htext
    exact isWord_paramText (h.params param hparam)
  rcases List.mem_cons.mp htext with rfl | htext
  · exact .inl rfl
  · exact (h.results text htext).isWord

end Spelling

/-! ## The tokens of a spelling -/

open Spelling

theorem Word.parameterTokens_of_text {w : Word} {param : String × String}
    (hparam : IsPart param.1 ∧ IsPart param.2) (h : w.text = paramText param) :
    ∃ tokens, w.parameterTokens = .ok tokens ∧
      tokens.map (·.kind) = Signature.paramKinds param := by
  unfold parameterTokens
  rw [h, toList_paramText, Text.splitFirst_append hparam.1.no_colon]
  simp only [List.isEmpty_iff, hparam.1.toList_ne_nil, hparam.2.toList_ne_nil, Bool.or_eq_true,
    or_self, if_false]
  refine ⟨_, rfl, ?_⟩
  simp [Signature.paramKinds]

theorem Word.blockVariable?_of_text {w : Word} {v : String} (hv : IsPart v)
    (h : w.text = blockText v) : w.blockVariable? = some v.toList := by
  have hlast : Text.dropLast? '}' (v.toList ++ ':' :: "Type\x7d".toList) =
      some (v.toList ++ ':' :: "Type".toList) := by
    rw [← Text.dropLast?_concat '}' (v.toList ++ ':' :: "Type".toList), List.append_assoc]
    rfl
  have hempty : v.toList.isEmpty = false := by
    rw [List.isEmpty_eq_false_iff]
    exact hv.toList_ne_nil
  unfold blockVariable?
  rw [h, toList_blockText]
  simp only [Text.dropHead?, if_true, Option.bind_eq_bind, Option.bind_some, hlast,
    Text.splitFirst_append hv.no_colon, hempty, Bool.false_eq_true, if_false]

theorem ne_of_colon_mem (text : String) (h : ':' ∈ text.toList) :
    text ≠ "=" ∧ text ≠ "#" ∧ text ≠ "?" := by
  refine ⟨?_, ?_, ?_⟩ <;>
  · rintro rfl
    exact absurd h (by decide)

namespace Statement

theorem resultTokens_of_texts (stop : Position) {words : List Word} {results : List String}
    (h : words.map (·.text) = results) (hne : results ≠ [])
    (hresults : ∀ text ∈ results, text ≠ "=") :
    ∃ tokens, resultTokens stop words = .ok tokens ∧
      tokens.map (·.kind) = [.resultType (" ".intercalate results)] := by
  subst h
  unfold resultTokens
  have hfind : words.find? (·.text == "=") = none := by
    rw [List.find?_eq_none]
    intro w hw
    simpa using hresults w.text (List.mem_map_of_mem hw)
  rw [hfind]
  cases words with
  | nil => exact absurd rfl hne
  | cons first words => exact ⟨_, rfl, rfl⟩

theorem laterTokens_of_texts (stop : Position) {words : List Word}
    {params : List (String × String)} {results : List String}
    (h : words.map (·.text) = params.map paramText ++ "=" :: results)
    (hparams : ∀ param ∈ params, IsPart param.1 ∧ IsPart param.2) (hne : results ≠ [])
    (hresults : ∀ text ∈ results, text ≠ "=") :
    ∃ tokens, laterTokens stop words = .ok tokens ∧
      tokens.map (·.kind) = params.flatMap Signature.paramKinds ++
        [.paramsEnd, .resultType (" ".intercalate results)] := by
  induction params generalizing words with
  | nil =>
      obtain ⟨w, rest, rfl, hw, hrest⟩ := List.map_eq_cons_iff.mp h
      obtain ⟨tokens, htokens, hkinds⟩ := resultTokens_of_texts stop hrest hne hresults
      refine ⟨⟨.paramsEnd, w.position⟩ :: tokens, ?_, ?_⟩
      · rw [laterTokens, if_pos hw, htokens]
        rfl
      · simp [hkinds]
  | cons param params ih =>
      obtain ⟨w, rest, rfl, hw, hrest⟩ := List.map_eq_cons_iff.mp h
      obtain ⟨parameter, hparameter, hkind⟩ :=
        Word.parameterTokens_of_text (hparams param List.mem_cons_self) hw
      obtain ⟨later, hlater, hkinds⟩ :=
        ih hrest fun other hother => hparams other (List.mem_cons_of_mem param hother)
      have hmarks := ne_of_colon_mem w.text (by rw [hw, toList_paramText]; simp)
      refine ⟨parameter ++ later, ?_, by simp [hkind, hkinds]⟩
      rw [laterTokens, if_neg hmarks.1, hparameter, hlater]
      rfl

theorem bodyTokens_of_texts (stop : Position) {words : List Word} {vars : List String}
    {params : List (String × String)} {results : List String}
    (h : words.map (·.text) = vars.map blockText ++ (params.map paramText ++ "=" :: results))
    (hvars : ∀ v ∈ vars, IsPart v) (hparams : ∀ param ∈ params, IsPart param.1 ∧ IsPart param.2)
    (hfirst : ∀ param, params.head? = some param → param.1.toList.head? ≠ some '{')
    (hne : results ≠ []) (hresults : ∀ text ∈ results, text ≠ "=") :
    ∃ tokens, bodyTokens stop words = .ok tokens ∧
      tokens.map (·.kind) = Signature.bodyKinds vars params (" ".intercalate results) := by
  induction vars generalizing words with
  | nil =>
      cases params with
      | nil =>
          obtain ⟨w, rest, rfl, hw, hrest⟩ := List.map_eq_cons_iff.mp h
          obtain ⟨tokens, htokens, hkinds⟩ := resultTokens_of_texts stop hrest hne hresults
          exact ⟨tokens, by rw [bodyTokens, if_pos hw, htokens], hkinds⟩
      | cons param params =>
          obtain ⟨w, rest, rfl, hw, hrest⟩ := List.map_eq_cons_iff.mp h
          have hparam := hparams param List.mem_cons_self
          obtain ⟨parameter, hparameter, hkind⟩ := Word.parameterTokens_of_text hparam hw
          obtain ⟨later, hlater, hkinds⟩ := laterTokens_of_texts stop hrest
            (fun other hother => hparams other (List.mem_cons_of_mem param hother)) hne hresults
          have hmarks := ne_of_colon_mem w.text (by rw [hw, toList_paramText]; simp)
          -- Only the first character tells a parameter from a block.
          have hblock : w.text.toList.head? ≠ some '{' := by
            rw [hw, toList_paramText, List.head?_append_of_ne_nil _ hparam.1.toList_ne_nil]
            exact hfirst param rfl
          refine ⟨⟨.paramsBegin, w.position⟩ :: parameter ++ later, ?_, ?_⟩
          · rw [bodyTokens, if_neg hmarks.1, if_neg hmarks.2.1, if_neg hmarks.2.2, if_neg hblock,
              hparameter, hlater]
            rfl
          · simp [hkind, hkinds, Signature.bodyKinds, Signature.paramsKinds]
  | cons v vars ih =>
      obtain ⟨w, rest, rfl, hw, hrest⟩ := List.map_eq_cons_iff.mp h
      obtain ⟨later, hlater, hkinds⟩ :=
        ih hrest fun other hother => hvars other (List.mem_cons_of_mem v hother)
      have hmarks := ne_of_colon_mem w.text (by rw [hw, toList_blockText]; simp)
      have hblock : w.text.toList.head? = some '{' := by
        rw [hw, toList_blockText]
        rfl
      refine ⟨⟨.typeParam v, w.position⟩ :: later, ?_, by simp [hkinds, Signature.bodyKinds]⟩
      rw [bodyTokens, if_neg hmarks.1, if_neg hmarks.2.1, if_neg hmarks.2.2, if_pos hblock,
        Word.blockVariable?_of_text (hvars v List.mem_cons_self) hw, hlater]
      simp only [String.ofList_toList]
      rfl

theorem tokens_of_spelling {s : Statement} {sp : Spelling} {id : UInt32} (hlegible : sp.Legible)
    (hid : Word.idLiteral? sp.literal.toList = some id) (h : s.words.map (·.text) = sp.words) :
    ∃ tokens, s.tokens = .ok tokens ∧ tokens.map (·.kind) = (sp.signature id).kinds := by
  obtain ⟨words, stop⟩ := s
  obtain ⟨head, rest, rfl, hhead, hrest⟩ := List.map_eq_cons_iff.mp h
  obtain ⟨body, hbody, hkinds⟩ := bodyTokens_of_texts stop hrest hlegible.vars
    hlegible.params hlegible.params_head hlegible.results_ne_nil
    fun text htext => (hlegible.results text htext).ne_equals
  have hempty : sp.name.toList.isEmpty = false := by
    rw [List.isEmpty_eq_false_iff]
    exact hlegible.name.toList_ne_nil
  unfold Statement.tokens
  simp only [hhead, toList_headText, Text.splitFirst_append hlegible.name_no_hash, hempty,
    Bool.false_eq_true, if_false, hid, hbody]
  refine ⟨_, rfl, ?_⟩
  simp [Signature.kinds, signature, hkinds]

end Statement

theorem Word.idLiteral?_eq (literal : List Char) :
    idLiteral? literal = if literal.length ≤ 8 then Text.uint32? 16 literal else none := by
  rw [idLiteral?]
  cases hread : Text.uint32? 16 literal with
  | none => simp
  | some id =>
      have hsize : byteLength literal = literal.length := Text.utf8ByteSize_of_uint32? hread
      have hsome : literal.isEmpty = false := by
        rw [List.isEmpty_eq_false_iff]
        rintro rfl
        cases hread
      rw [hsize, hsome, Bool.false_or]
      by_cases hshort : literal.length ≤ 8
      · rw [if_pos hshort, if_neg (by simpa using hshort)]
      · rw [if_neg hshort, if_pos (by simpa using hshort)]

/-! ## The tokens of a line -/

namespace Lexer

open Scan

/-- A line starts like its name, which looks neither like a section mark nor like a comment. -/
theorem exists_toUtf8_line {sp : Spelling} (h : sp.Legible) : ∃ b bytes,
    Text.toUtf8 (line sp.words) = b :: bytes ∧ isWordByte b = true ∧ b ≠ 0x2d ∧ b ≠ 0x2f := by
  obtain ⟨b, tail, hbytes, hfirst⟩ := exists_first_byte (isLexeme_headText h.name h.literal) (by
    rw [head?_headText sp.literal h.name.ne_empty]
    exact h.name_head)
  refine ⟨b, tail ++ (spaced sp.bodyWords ++ [0x3b]), ?_, hfirst⟩
  rw [Spelling.words, toUtf8_line, hbytes, List.cons_append]

/-- The first token of a line; the others are pending then. -/
theorem nextToken_facing_line {s : Lexer} (hpending : s.pending = []) (hfailed : s.failed = false)
    {sp : Spelling} {id : UInt32} (hlegible : sp.Legible)
    (hid : Word.idLiteral? sp.literal.toList = some id) (rest : List UInt8) (p : Position) :
    ∃ token pending p', nextToken (s.facing (Text.toUtf8 (line sp.words) ++ rest) p) =
        .ok (some token) { s.facing rest p' with pending } ∧
      token.kind = .name sp.name ∧ pending.map (·.kind) =
        .id id :: Signature.bodyKinds sp.vars sp.params (" ".intercalate sp.results) := by
  have hwrites : WritesWords false sp.words (Text.toUtf8 (line sp.words)) :=
    writesWords_line hlegible.isWord
  obtain ⟨b, bytes, hline, hword, hdash, hslash⟩ := exists_toUtf8_line hlegible
  rw [hline] at hwrites
  obtain ⟨words, stop, p', htexts, hgroup⟩ :=
    nextGroup_facing_declaration hwrites (not_blank_of_isWordByte hword) hdash hslash s rest p
  obtain ⟨tokens, htokens, hkinds⟩ :=
    Statement.tokens_of_spelling (s := ⟨words, stop⟩) hlegible hid htexts
  obtain ⟨token, pending, rfl, hname, hpending'⟩ := List.map_eq_cons_iff.mp hkinds
  refine ⟨token, pending, p', ?_, hname, hpending'⟩
  rw [htokens] at hgroup
  rw [nextToken_of_nextGroup (s := s.facing _ p) hpending hfailed, hline, List.cons_append, hgroup]

end Lexer

end TypeLang
