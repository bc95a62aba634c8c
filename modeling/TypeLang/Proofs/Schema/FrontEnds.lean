import Mathlib
import TypeLang.Proofs.Declaration.Lines
import TypeLang.Proofs.Schema.IdTexts
import TypeLang.Proofs.Text.Digits
import TypeLang.Schema.Reader

/-!
# Both front ends agree

A declaration can be written as a line of a schema text and as an entry of a schema document.
Whatever the texts of its parts are, both are read as the same declaration or fail with the same
error (`Schema.Outline.Portable.frontEnds_agree`).
-/

namespace TypeLang.Schema

/-! ## What both say -/

def RawId.json : RawId → Json
  | number n => .integer n
  | text s => .string s

/-- A declaration without its identifier, as texts of which nothing has been read. -/
structure Outline where
  name : String
  /-- Names and types. -/
  params : List (String × String)
  /-- The words of the result type. -/
  results : List String
  deriving DecidableEq, Repr

namespace Outline

def varOf? (type : String) : Option String :=
  (Text.dropHead? ['!'] type.toList).map String.ofList

def vars (o : Outline) : List String :=
  o.params.filterMap fun param => varOf? param.2

def spelling (o : Outline) (literal : String) : Spelling :=
  ⟨o.name, literal, o.vars, o.params, o.results⟩

def sectionText (o : Outline) (category : Category) (literal : String) : String :=
  Lexer.markText category ++ "\n" ++ Lexer.line (o.spelling literal).words

def entry (o : Outline) (id : RawId) : RawEntry :=
  ⟨id, some o.name, o.params.map fun param => ⟨param.1, param.2⟩, " ".intercalate o.results⟩

def paramJson (param : String × String) : Json :=
  .object [("name", .string param.1), ("type", .string param.2)]

def nameKey : Category → String
  | .constructor => "predicate"
  | .method => "method"

def json (o : Outline) (category : Category) (id : RawId) : Json :=
  .object [("id", id.json), (nameKey category, .string o.name),
    ("params", .array (o.params.map paramJson)), ("type", .string (" ".intercalate o.results))]

/-- The parts can stand on a line. The name must not look like a section mark or a comment, the
first parameter not like a block, and no variable is without a name. -/
structure Portable (o : Outline) : Prop where
  name : IsPart o.name
  name_no_hash : '#' ∉ o.name.toList
  name_head : ∀ c, o.name.toList.head? = some c → c ≠ '-' ∧ c ≠ '/'
  params : ∀ param ∈ o.params, IsPart param.1 ∧ IsPart param.2
  params_head : ∀ param, o.params.head? = some param → param.1.toList.head? ≠ some '{'
  params_var : ∀ param ∈ o.params, param.2 ≠ "!"
  results_ne_nil : o.results ≠ []
  results : ∀ text ∈ o.results, IsPart text

end Outline

/-! ## Identifiers -/

/-- A document gives the identifier as `0x` and hexadecimal digits, under a format that reads them,
or as a number with the same 32 bits. -/
def RawId.Denotes (format : IdFormat) (id : UInt32) : RawId → Prop
  | .text s => format ≠ .decimal ∧
      ∃ digits, s = "0x" ++ digits ∧ Text.digits? 16 digits.toList = some id.toNat
  | .number n => -2 ^ 31 ≤ n ∧ n < 2 ^ 32 ∧ n % 2 ^ 32 = id.toNat

theorem RawId.id?_of_denotes {format : IdFormat} {id : UInt32} {raw : RawId}
    (h : raw.Denotes format id) : raw.id? format = some id := by
  cases raw with
  | number n =>
      obtain ⟨hlow, hhigh, hbits⟩ := h
      exact IdFormat.idOfInt?_eq_some hlow hhigh hbits
  | text s =>
      obtain ⟨hformat, digits, rfl, hdigits⟩ := h
      exact IdFormat.id?_of_marked hformat (by decide) hdigits

/-! ## Entries -/

namespace Outline

theorem ofJson?_json (o : Outline) (category : Category) {format : IdFormat} {id : UInt32}
    {raw : RawId} (h : raw.Denotes format id) :
    RawEntry.ofJson? (o.json category raw) = some (o.entry raw) := by
  have hid : RawId.ofJson? raw.json = some raw := by
    cases raw with
    | number n =>
        obtain ⟨hlow, hhigh, -⟩ := h
        exact if_pos ⟨by omega, by omega⟩
    | text s => rfl
  have hparams : (o.params.map paramJson).mapM RawParam.ofJson? =
      some (o.params.map fun param => ⟨param.1, param.2⟩) := by
    rw [List.mapM_map]
    exact List.mapM_pure
  have hrecord :
      (o.json category raw).record? [["id"], ["predicate", "method"], ["params"], ["type"]] =
        some [some raw.json, some (.string o.name), some (.array (o.params.map paramJson)),
          some (.string (" ".intercalate o.results))] := by
    cases category <;> rfl
  unfold RawEntry.ofJson?
  rw [hrecord]
  simp only [Option.bind_eq_bind, Option.bind_some, hid, textField?, Json.string?, Option.map_some,
    arrayField?, Json.array?, hparams]
  rfl

theorem declares?_of_part {param : String × String} (h : IsPart param.2) :
    RawParam.declares? ⟨param.1, param.2⟩ = varOf? param.2 := by
  rw [RawParam.declares?, Text.trimChars_of_visible fun c hc => (isPlain_iff.mp (h.plain c hc)).1]
  rfl

variable {o : Outline}

theorem Portable.declares?_entry (h : o.Portable) (raw : RawId) :
    (o.entry raw).params.filterMap RawParam.declares? = o.vars := by
  rw [entry, List.filterMap_map, vars]
  exact List.filterMap_congr fun param hparam => declares?_of_part (h.params param hparam).2

theorem Portable.isPart_of_mem_vars (h : o.Portable) : ∀ v ∈ o.vars, IsPart v := by
  intro v hv
  obtain ⟨param, hparam, hvar⟩ := List.mem_filterMap.mp hv
  obtain ⟨rest, hrest, rfl⟩ := Option.map_eq_some_iff.mp hvar
  have htype := (h.params param hparam).2
  have hlist : param.2.toList = '!' :: rest := Text.dropHead?_eq_some hrest
  refine ⟨?_, ?_, ?_⟩
  · intro hempty
    apply h.params_var param hparam
    rw [← String.toList_inj, hlist, ← String.toList_ofList (l := rest), hempty]
    rfl
  · intro c hc
    rw [String.toList_ofList] at hc
    exact htype.plain c (by rw [hlist]; exact List.mem_cons_of_mem _ hc)
  · intro hc
    rw [String.toList_ofList] at hc
    exact htype.no_colon (by rw [hlist]; exact List.mem_cons_of_mem _ hc)

theorem Portable.legible (h : o.Portable) {literal : String} {n : Nat}
    (hliteral : Text.digits? 16 literal.toList = some n) : (o.spelling literal).Legible where
  name := h.name
  name_no_hash := h.name_no_hash
  name_head := h.name_head
  literal c hc := by
    have hc := Text.isIdentifierChar_of_digits? hliteral c hc
    refine isPlain_iff.mpr ⟨Text.isVisible_of_isIdentifierChar hc, ?_, ?_⟩ <;>
    · rintro rfl
      exact absurd hc (by decide)
  vars := h.isPart_of_mem_vars
  params := h.params
  params_head := h.params_head
  results_ne_nil := h.results_ne_nil
  results := h.results

theorem Portable.declaration_eq (h : o.Portable) (literal : String) {format : IdFormat}
    {id : UInt32} {raw : RawId} (hraw : raw.Denotes format id) (category : Category) :
    ((o.spelling literal).signature id).declaration category =
      (o.entry raw).declaration format category := by
  -- Both look at the name, the parameters in their order, and the result, under the same variables.
  rw [Signature.declaration_eq, RawEntry.declaration]
  simp only [h.declares?_entry]
  have hid : (o.entry raw).id.id? format = some id := RawId.id?_of_denotes hraw
  have hname : (o.entry raw).name = some o.name := rfl
  rw [hid, hname]
  simp only [pure_bind]
  have hsig : ((o.spelling literal).signature id).name = o.name := rfl
  rw [hsig]
  cases QualifiedName.parse? o.name.toList with
  | none => rfl
  | some name =>
      simp only [entry, List.mapM_map]
      rfl

theorem idLiteral?_of_digits {literal : String} {id : UInt32}
    (h : Text.digits? 16 literal.toList = some id.toNat) (hlength : literal.toList.length ≤ 8) :
    Word.idLiteral? literal.toList = some id := by
  rw [Word.idLiteral?_eq, if_pos hlength, Text.uint32?_of_digits h]

/-- The line in its section and the entry give the same declaration, or the same error about the
name or a type. -/
theorem Portable.frontEnds_agree (h : o.Portable) {literal : String} {format : IdFormat}
    {id : UInt32} {raw : RawId} (hliteral : Text.digits? 16 literal.toList = some id.toNat)
    (hlength : literal.toList.length ≤ 8) (hraw : raw.Denotes format id) (category : Category) :
    ∃ outcome,
      (DeclarationReader.ofBytes (Text.toUtf8 (o.sectionText category literal))).items.1 =
        [outcome] ∧
      (RawEntry.ofJson? (o.json category raw)).map (·.declaration format category) =
        some outcome ∧
      ((∃ d, outcome = .ok d) ∨
        ∃ parameter fault, outcome = .error (.type o.name parameter fault)) := by
  refine ⟨((o.spelling literal).signature id).declaration category, ?_, ?_, ?_⟩
  · exact DeclarationReader.items_of_line (h.legible hliteral)
      (idLiteral?_of_digits hliteral hlength) category
  · rw [ofJson?_json o category hraw, Option.map_some, h.declaration_eq literal hraw]
  · cases hsig : ((o.spelling literal).signature id).declaration category with
    | ok d => exact .inl ⟨d, rfl⟩
    | error e =>
        obtain ⟨parameter, fault, rfl⟩ := DeclarationReader.declaration_eq_error hsig
        exact .inr ⟨parameter, fault, rfl⟩

def relay : Outline :=
  ⟨"calls.relay", [("flags", "#"), ("query", "!T"), ("to", "flags.32?int")], ["Vector", "t"]⟩

example : relay.sectionText .method "DA9B0D0D" =
    "---functions---\ncalls.relay#DA9B0D0D \x7bT:Type\x7d flags:# query:!T " ++
      "to:flags.32?int = Vector t;" := by
  decide +kernel

theorem portable_relay : relay.Portable where
  name := by decide
  name_no_hash := by decide
  name_head := by
    rintro c ⟨⟩
    decide
  params := by decide
  params_head := by
    rintro param ⟨⟩
    decide
  params_var := by decide
  results_ne_nil := by decide
  results := by decide

theorem frontEnds_agree_relay :
    relay.Portable ∧ Text.digits? 16 "DA9B0D0D".toList = some (0xda9b0d0d : UInt32).toNat ∧
      "DA9B0D0D".toList.length ≤ 8 ∧ (RawId.text "0xda9b0d0d").Denotes .auto 0xda9b0d0d ∧
      ∃ outcome,
        (DeclarationReader.ofBytes (Text.toUtf8 (relay.sectionText .method "DA9B0D0D"))).items.1 =
          [outcome] ∧
        (RawEntry.ofJson? (relay.json .method (.text "0xda9b0d0d"))).map
          (·.declaration .auto .method) = some outcome ∧
        ((∃ d, outcome = .ok d) ∨
          ∃ parameter fault, outcome = .error (.type relay.name parameter fault)) :=
  have hliteral : Text.digits? 16 "DA9B0D0D".toList = some (0xda9b0d0d : UInt32).toNat := by decide
  have hraw : (RawId.text "0xda9b0d0d").Denotes .auto 0xda9b0d0d :=
    ⟨by decide, "da9b0d0d", by decide, by decide⟩
  ⟨portable_relay, hliteral, by decide, hraw,
    portable_relay.frontEnds_agree hliteral (by decide) hraw .method⟩

end Outline

end TypeLang.Schema
