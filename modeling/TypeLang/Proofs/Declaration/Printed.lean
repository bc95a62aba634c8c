import Mathlib
import TypeLang.Proofs.Declaration.Lines
import TypeLang.Proofs.TypeExpr.Printed

/-!
# Reading printed declarations

Declarations whose names and types are read again from their texts are read again themselves, each
on its own and all of them from a schema text that has a section mark wherever the category changes
(`Declaration.items_schemaText`).
-/

namespace TypeLang

/-! ## Parts -/

theorem isPlain_of_isTypeChar {c : Char} (h : isTypeChar c = true) : isPlain c = true := by
  refine isPlain_iff.mpr ⟨isVisible_of_isTypeChar h, ?_, ?_⟩ <;>
  · rintro rfl
    exact absurd h (by decide)

theorem isPart_of_typeChars {text : String} (hne : text.toList ≠ [])
    (h : ∀ c ∈ text.toList, isTypeChar c = true) : IsPart text where
  ne_empty := by
    rintro rfl
    exact hne rfl
  plain c hc := isPlain_of_isTypeChar (h c hc)
  no_colon hc := absurd (h ':' hc) (by decide)

theorem isPart_of_isIdentifier {text : String} (h : isIdentifier text.toList = true) :
    IsPart text :=
  isPart_of_typeChars (isIdentifier_iff.mp h).1 (isTypeChar_of_isIdentifier h)

theorem idLiteral?_hex8 (id : UInt32) : Word.idLiteral? (Text.hex8 id).toList = some id := by
  have hlength : (Text.hex8 id).toList.length = 8 := by
    rw [Text.hex8, String.toList_ofList, Text.length_hexDigits]
  rw [Word.idLiteral?_eq, if_pos (Nat.le_of_eq hlength),
    Text.uint32?_of_digits (Text.digits?_hex8 id)]

namespace Declaration

/-! ## Printable declarations -/

/-- A declaration that is read again from its text. -/
structure Printable (d : Declaration) : Prop where
  name : d.name.Valid
  paramNames : ∀ p ∈ d.params, isIdentifier p.name.toList = true
  paramTypes : ∀ p ∈ d.params, p.type.Printable d.category d.typeVariables
  result : d.result.Printable d.category d.typeVariables

instance (d : Declaration) : Decidable d.Printable :=
  decidable_of_iff
    (d.name.Valid ∧ (∀ p ∈ d.params, isIdentifier p.name.toList = true) ∧
      (∀ p ∈ d.params, p.type.Printable d.category d.typeVariables) ∧
      d.result.Printable d.category d.typeVariables)
    ⟨fun ⟨name, paramNames, paramTypes, result⟩ => ⟨name, paramNames, paramTypes, result⟩,
      fun h => ⟨h.name, h.paramNames, h.paramTypes, h.result⟩⟩

def spelling (d : Declaration) : Spelling :=
  ⟨d.fullName, Text.hex8 d.id, d.typeVariables, d.params.map fun p => (p.name, p.type.text),
    [d.result.text]⟩

theorem line_spelling (d : Declaration) : Lexer.line d.spelling.words = d.text ++ ";" := by
  have hparams : (d.params.map fun p => (p.name, p.type.text)).map Spelling.paramText =
      d.params.map Parameter.text := by
    rw [List.map_map]
    rfl
  simp only [Lexer.line, Spelling.words, Spelling.bodyWords, spelling, hparams]
  rw [text, List.cons_append, List.cons_append, List.append_assoc]
  rfl

theorem Printable.isIdentifier_of_mem_typeVariables {d : Declaration} (h : d.Printable) :
    ∀ v ∈ d.typeVariables, isIdentifier v.toList = true := by
  intro v hv
  rw [typeVariables, List.mem_eraseDups] at hv
  rcases List.mem_append.mp hv with hv | hv
  · obtain ⟨p, hp, hv⟩ := List.mem_flatMap.mp hv
    exact TypeExpr.isIdentifier_of_mem_freeVariables (h.paramTypes p hp).2 v hv
  · exact TypeExpr.isIdentifier_of_mem_freeVariables h.result.2 v hv

theorem Printable.legible {d : Declaration} (h : d.Printable) : d.spelling.Legible where
  name := isPart_of_typeChars (QualifiedName.fullName_ne_nil h.name)
    (QualifiedName.isTypeChar_fullName h.name)
  name_no_hash := QualifiedName.not_mem_fullName h.name (by decide) (by decide)
  name_head c hc := by
    rcases QualifiedName.mem_fullName h.name c (List.mem_of_head? hc) with rfl | hc
    · decide
    · constructor <;>
      · rintro rfl
        exact absurd hc (by decide)
  literal c hc := by
    refine isPlain_of_isTypeChar (isTypeChar_of_isIdentifierChar ?_)
    exact Text.isIdentifierChar_of_digits? (Text.digits?_hex8 d.id) c hc
  vars v hv := isPart_of_isIdentifier (h.isIdentifier_of_mem_typeVariables v hv)
  params param hparam := by
    obtain ⟨p, hp, rfl⟩ := List.mem_map.mp hparam
    have hlegible := (h.paramTypes p hp).2
    exact ⟨isPart_of_isIdentifier (h.paramNames p hp),
      isPart_of_typeChars (TypeExpr.text_ne_nil hlegible) (TypeExpr.isTypeChar_text hlegible)⟩
  params_head param hparam hbrace := by
    obtain ⟨p, hp, rfl⟩ := List.mem_map.mp (List.mem_of_head? hparam)
    exact not_mem_of_isIdentifier (h.paramNames p hp) (by decide) (List.mem_of_head? hbrace)
  results_ne_nil := List.cons_ne_nil d.result.text []
  results text htext := by
    rw [List.mem_singleton.mp htext]
    exact isPart_of_typeChars (TypeExpr.text_ne_nil h.result.2)
      (TypeExpr.isTypeChar_text h.result.2)

theorem Printable.declaration_signature {d : Declaration} (h : d.Printable) :
    (d.spelling.signature d.id).declaration d.category = .ok d := by
  have hdeclared := h.isIdentifier_of_mem_typeVariables
  have hparams : (d.params.map fun p => (p.name, p.type.text)).mapM
      (Signature.param d.category d.typeVariables d.fullName) = .ok d.params := by
    rw [mapM_eq_ok, List.forall₂_map_left_iff, List.forall₂_same]
    intro p hp
    rw [Signature.param, TypeExpr.parse_text hdeclared (h.paramTypes p hp)]
  have hname : QualifiedName.parse? (d.spelling.signature d.id).name.toList = some d.name :=
    QualifiedName.parse?_fullName h.name
  have hresult : TypeExpr.parseResult d.category (d.spelling.signature d.id).vars
      (d.spelling.signature d.id).result = .ok d.result := by
    change TypeExpr.parseResult _ d.typeVariables (" ".intercalate [d.result.text]) = _
    rw [String.intercalate_singleton, TypeExpr.parseResult_text hdeclared h.result]
  rw [Signature.declaration_eq, hname, hresult]
  exact bind_eq_ok.mpr ⟨d.params, hparams, rfl⟩

/-! ## One declaration -/

open DeclarationReader

/-- The line that switches to the section of a category, if another section is being read. -/
def enterText (current : Option Category) (category : Category) : String :=
  if current = some category then "" else Lexer.markText category ++ "\n"

/-- A printable declaration is read from its line, behind the line that switches to its section if
there has to be one. -/
theorem Printable.next_facing {d : Declaration} (h : d.Printable) {s : Lexer}
    (hpending : s.pending = []) (hfailed : s.failed = false) (current : Option Category)
    (hcurrent : ∀ c, current = some c → s.category = c) (rest : List UInt8) (p : Position) :
    ∃ p',
      (facing s (Text.toUtf8 (enterText current d.category ++ (d.text ++ ";")) ++ rest) p).next =
        (some (.ok d), facing { s with category := d.category } rest p') := by
  have hline := next_facing_line_ok (s := { s with category := d.category }) hpending hfailed
    h.legible (idLiteral?_hex8 d.id) h.declaration_signature rest
  rw [line_spelling] at hline
  unfold enterText
  split
  · rename_i hsame
    have hs : { s with category := d.category } = s := by rw [← hcurrent d.category hsame]
    rw [hs] at hline ⊢
    rw [String.empty_append]
    exact hline p
  · obtain ⟨p', hmark⟩ := next_facing_mark hpending hfailed d.category
      (Text.toUtf8 (d.text ++ ";") ++ rest) p
    rw [Text.toUtf8_append, List.append_assoc, hmark]
    exact hline p'

theorem Printable.toList_text_ends {d : Declaration} (h : d.Printable) :
    (∃ c, d.text.toList.head? = some c ∧ isTypeChar c = true) ∧
      ∃ c, d.text.toList.getLast? = some c ∧ isTypeChar c = true := by
  constructor
  · obtain ⟨c, cs, hname⟩ := List.exists_cons_of_ne_nil (QualifiedName.fullName_ne_nil h.name)
    refine ⟨c, ?_, QualifiedName.isTypeChar_fullName h.name c (by rw [hname]; simp)⟩
    obtain ⟨next, others, hrest⟩ := List.exists_cons_of_ne_nil
      (l := d.typeVariables.map (fun v => "\x7b" ++ v ++ ":Type\x7d") ++
        (d.params.map Parameter.text ++ ["=", d.result.text])) (by simp)
    rw [text, List.cons_append, List.cons_append, List.append_assoc, hrest,
      String.intercalate_cons_cons]
    simp [fullName, hname]
  · have hne := TypeExpr.text_ne_nil h.result.2
    obtain ⟨front, hfront⟩ := Text.exists_intercalate_concat " "
      ((d.fullName ++ "#" ++ Text.hex8 d.id)
        :: d.typeVariables.map (fun v => "\x7b" ++ v ++ ":Type\x7d")
        ++ d.params.map Parameter.text ++ ["="]) d.result.text
    refine ⟨d.result.text.toList.getLast hne, ?_,
      TypeExpr.isTypeChar_text h.result.2 _ (List.getLast_mem hne)⟩
    rw [List.append_assoc] at hfront
    have htext : d.text = front ++ d.result.text := hfront
    rw [htext, String.toList_append, List.getLast?_append_of_ne_nil _ hne,
      List.getLast?_eq_some_getLast hne]

theorem Printable.sectionText {d : Declaration} (h : d.Printable) :
    sectionText d.category d.text =
      enterText (some .constructor) d.category ++ (d.text ++ ";") := by
  obtain ⟨⟨first, hfirst, hfirstChar⟩, last, hlast, hlastChar⟩ := h.toList_text_ends
  have htrim : Text.trimChars d.text.toList = d.text.toList := by
    refine Text.trimChars_of_ends ?_ ?_
    · intro c hc
      rw [hfirst] at hc
      cases hc
      exact Text.isBlank_of_isVisible (isVisible_of_isTypeChar hfirstChar)
    · intro c hc
      rw [hlast] at hc
      cases hc
      exact Text.isBlank_of_isVisible (isVisible_of_isTypeChar hlastChar)
  have hstop : Text.dropEndWhile (· == ';') d.text.toList = d.text.toList := by
    refine Text.dropEndWhile_of_last ?_
    intro c hc
    rw [hlast] at hc
    cases hc
    rw [beq_eq_false_iff_ne]
    rintro rfl
    exact absurd hlastChar (by decide)
  unfold Declaration.sectionText
  simp only [htrim, hstop, String.ofList_toList]
  rw [String.append_assoc]
  cases d.category <;> rfl

theorem Printable.parse_text {d : Declaration} (h : d.Printable) :
    parse d.category d.text = .ok d := by
  -- A second item is asked for, too. With all bytes in hand there is none.
  obtain ⟨r, hfirst, hsecond⟩ : ∃ r,
      (ofBytes (Text.toUtf8 (Declaration.sectionText d.category d.text))).next =
        (some (.ok d), r) ∧ r.whole.next.1 = none := by
    have hwhole := next_whole (ofBytes (Text.toUtf8 (Declaration.sectionText d.category d.text)))
    obtain ⟨p', hnext⟩ := h.next_facing (s := Lexer.ofSource []) rfl rfl (some .constructor)
      (by rintro _ ⟨⟩; rfl) [] .start
    rw [List.append_nil] at hnext
    rw [whole_ofBytes, h.sectionText, hnext] at hwhole
    rw [h.sectionText]
    generalize (ofBytes _).next = step at hwhole ⊢
    obtain ⟨item, r⟩ := step
    obtain ⟨rfl, hbehind⟩ := Prod.mk.inj hwhole
    exact ⟨r, rfl, by rw [← hbehind, next_facing_nil rfl]⟩
  unfold parse
  simp only [hfirst]
  rw [next_whole] at hsecond
  rcases hnext : r.next with ⟨item, t⟩
  rw [hnext] at hsecond
  obtain rfl : item = none := hsecond
  rfl

/-! ## Schemas -/

/-- The text of declarations, each on a line of its own, with a section mark wherever the category
changes. The text starts in the section `current`, or in an unknown one. -/
def schemaText : (current : Option Category) → List Declaration → String
  | _, [] => ""
  | current, d :: ds =>
    enterText current d.category ++ (d.text ++ ";") ++ ("\n" ++ schemaText (some d.category) ds)

theorem itemsFrom_schemaText {ds : List Declaration} (h : ∀ d ∈ ds, d.Printable)
    (done : List (Except ParseError Declaration)) {s : Lexer} (hpending : s.pending = [])
    (hfailed : s.failed = false) (current : Option Category)
    (hcurrent : ∀ c, current = some c → s.category = c) (p : Position) :
    (itemsFrom done (facing s (Text.toUtf8 (schemaText current ds)) p)).1 =
      done.reverse ++ ds.map .ok := by
  -- On the declarations that are left, in the section of the last one that was read.
  induction ds generalizing done s current p with
  | nil =>
      change (itemsFrom done (facing s [] p)).1 = _
      rw [itemsFrom_eq, next_facing_nil hpending]
      simp
  | cons d ds ih =>
      obtain ⟨p', hnext⟩ := (h d List.mem_cons_self).next_facing hpending hfailed current hcurrent
        (0x0a :: Text.toUtf8 (schemaText (some d.category) ds)) p
      have hrest := ih (fun other hother => h other (List.mem_cons_of_mem d hother)) (.ok d :: done)
        (s := { s with category := d.category }) hpending hfailed
        (some d.category) (by rintro _ ⟨⟩; rfl) (p'.after 0x0a)
      rw [schemaText, Text.toUtf8_append, Text.toUtf8_append "\n"]
      change (itemsFrom done (facing s (_ ++ 0x0a :: Text.toUtf8 _) p)).1 = _
      rw [itemsFrom_eq, hnext]
      simp only
      rw [itemsFrom_congr (next_facing_lineBreak (s := { s with category := d.category })
        hpending hfailed _ p'), hrest, List.reverse_cons, List.append_assoc]
      rfl

/-- Printable declarations are read again: all of them from a schema text with a section mark
wherever the category changes, and each on its own. -/
theorem items_schemaText {ds : List Declaration} (h : ∀ d ∈ ds, d.Printable)
    {current : Option Category} (hcurrent : current ≠ some .method) :
    (ofBytes (Text.toUtf8 (schemaText current ds))).items.1 = ds.map .ok ∧
      ∀ d ∈ ds, parse d.category d.text = .ok d := by
  refine ⟨?_, fun d hd => (h d hd).parse_text⟩
  rw [← items_whole, whole_ofBytes]
  refine itemsFrom_schemaText h [] (s := Lexer.ofSource []) rfl rfl current ?_ .start
  rintro (_ | _) hc
  · rfl
  · exact absurd hc hcurrent

def printedPair : List Declaration :=
  [⟨.method, 0x0badf00d, ⟨["calls"], "relay"⟩,
      [⟨"flags", .primitive .flags⟩, ⟨"query", .var "T"⟩,
        ⟨"to", .flag ⟨"flags", .last 31⟩ (.named ⟨["calls"], "Peer"⟩ true)⟩],
      .vector (.var "T") true⟩,
    ⟨.constructor, 7, ⟨[], "route"⟩, [⟨"hops", .vector (.named ⟨[], "hop"⟩ true) false⟩],
      .named ⟨[], "Route"⟩ false⟩]

example : schemaText none printedPair =
    "---functions---\ncalls.relay#0badf00d \x7bT:Type\x7d flags:# query:!T " ++
      "to:flags.31?%calls.Peer = Vector<!T>;\n" ++
      "---types---\nroute#00000007 hops:vector<hop> = Route;\n" := by
  decide +kernel

theorem items_schemaText_printedPair :
    (∀ d ∈ printedPair, d.Printable) ∧ (none : Option Category) ≠ some .method ∧
      (ofBytes (Text.toUtf8 (schemaText none printedPair))).items.1 = printedPair.map .ok ∧
      ∀ d ∈ printedPair, parse d.category d.text = .ok d :=
  have hprintable : ∀ d ∈ printedPair, d.Printable := by decide
  ⟨hprintable, by decide, items_schemaText hprintable (by decide)⟩

end Declaration

end TypeLang
