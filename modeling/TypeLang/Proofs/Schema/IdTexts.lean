import TypeLang.Proofs.Schema.Parsed
import TypeLang.Proofs.Text.Cut
import TypeLang.Proofs.Text.Spelled

/-!
# Every spelling of an identifier

An identifier can be written in hexadecimal, with or without a mark in front, and in decimal as an
unsigned number or as the signed number with the same bits. Each spelling is read as the identifier
under the formats that admit it, and a decimal number that is none of 32 bits is refused. A number
in a document is read like the text that prints it (`IdFormat.spellings_normalise`).
-/

namespace TypeLang

/-! ## Numbers with 32 bits -/

namespace IdFormat

theorem idOfInt?_eq_some {z : Int} {n : UInt32} (hlow : -2 ^ 31 ≤ z) (hhigh : z < 2 ^ 32)
    (hbits : z % 2 ^ 32 = n.toNat) : idOfInt? z = some n := by
  norm_num at hlow hhigh hbits
  rw [idOfInt?, if_pos ⟨hlow, hhigh⟩, hbits, Int.toNat_natCast, UInt32.ofNat_toNat]

theorem idOfInt?_eq_none {z : Int} (h : z < -2 ^ 31 ∨ 2 ^ 32 ≤ z) : idOfInt? z = none := by
  norm_num at h
  rw [idOfInt?, if_neg (by omega)]

theorem idOfInt?_unsigned (n : UInt32) : idOfInt? n.toNat = some n := by
  have hlt := n.toNat_lt
  exact idOfInt?_eq_some (by omega) (by omega) (by omega)

theorem idOfInt?_signed (n : UInt32) : idOfInt? n.toInt32.toInt = some n := by
  have hlow := n.toInt32.le_toInt
  have hhigh := n.toInt32.toInt_lt
  have hlt := n.toNat_lt
  refine idOfInt?_eq_some hlow (by omega) ?_
  calc n.toInt32.toInt % 2 ^ 32
      = (n.toNat : Int).bmod (2 ^ 32) % (2 ^ 32 : Nat) := by
        rw [show n.toInt32.toInt = (n.toNat : Int).bmod (2 ^ 32) from BitVec.toInt_eq_toNat_bmod _]
        rfl
    _ = n.toNat % (2 ^ 32 : Nat) := Int.bmod_emod
    _ = n.toNat := by omega

/-! ## Texts -/

theorem id?_surrounded {before after : String} (format : IdFormat) (text : String)
    (hbefore : ∀ c ∈ before.toList, Text.isBlank c = true)
    (hafter : ∀ c ∈ after.toList, Text.isBlank c = true) :
    format.id? (before ++ text ++ after) = format.id? text := by
  have htrim : Text.trimChars (before ++ text ++ after).toList = Text.trimChars text.toList := by
    rw [String.toList_append, String.toList_append, List.append_assoc]
    exact Text.trimChars_surrounded text.toList hbefore hafter
  unfold id?
  rw [htrim]

theorem afterHexMark?_eq_none {cs : List Char} (hlower : 'x' ∉ cs) (hupper : 'X' ∉ cs) :
    afterHexMark? cs = none := by
  rw [afterHexMark?, Text.dropHead?_eq_none (c := 'x') (by decide) hlower,
    Text.dropHead?_eq_none (c := 'X') (by decide) hupper]
  rfl

theorem decimalId?_of_isDecimal {z : Int} {cs : List Char} (h : Text.IsDecimal z cs) :
    decimalId? cs = idOfInt? z := by
  rw [decimalId?, Text.int64?_of_isDecimal h]
  split
  · rfl
  · -- What does not fit into 64 bits does not fit into 32 either.
    rw [idOfInt?_eq_none (by omega)]
    rfl

theorem id?_of_isDecimal {format : IdFormat} (hformat : format ≠ .hex) {z : Int} {text : String}
    (h : Text.IsDecimal z text.toList) : format.id? text = idOfInt? z := by
  have hchars := Text.isDigit_of_isDecimal h
  have hvisible : ∀ c ∈ text.toList, Text.isVisible c = true := by
    intro c hc
    rcases hchars c hc with rfl | rfl | hdigit
    · rfl
    · rfl
    · exact Text.isVisible_of_isIdentifierChar (by simp [isIdentifierChar, Char.isAlphanum, hdigit])
  have hmark : afterHexMark? text.toList = none :=
    afterHexMark?_eq_none (fun hx => absurd (hchars 'x' hx) (by decide))
      fun hx => absurd (hchars 'X' hx) (by decide)
  have hletter : text.toList.any isHexLetter = false := by
    rw [List.any_eq_false]
    intro c hc
    rcases hchars c hc with rfl | rfl | hdigit
    · decide
    · decide
    · simp [isHexLetter, hdigit]
  unfold id?
  simp only [Text.trimChars_of_visible hvisible, hmark, hletter, decimalId?_of_isDecimal h]
  cases format with
  | auto => rfl
  | hex => exact absurd rfl hformat
  | decimal => rfl

/-- Hexadecimal digits behind a mark are read as such unless only decimal numbers are. -/
theorem id?_of_marked {format : IdFormat} (hformat : format ≠ .decimal) {n : UInt32}
    {mark digits : String} (hmark : mark ∈ ["0x", "0X"])
    (h : Text.digits? 16 digits.toList = some n.toNat) : format.id? (mark ++ digits) = some n := by
  have hvisible : ∀ c ∈ (mark ++ digits).toList, Text.isVisible c = true := by
    intro c hc
    rw [String.toList_append] at hc
    rcases List.mem_append.mp hc with hc | hc
    · refine Text.isVisible_of_isIdentifierChar (List.all_eq_true.mp ?_ c hc)
      rcases List.mem_pair.mp hmark with rfl | rfl
      · decide
      · decide
    · exact Text.isVisible_of_isIdentifierChar (Text.isIdentifierChar_of_digits? h c hc)
  have hafter : afterHexMark? (mark ++ digits).toList = some digits.toList := by
    rw [String.toList_append]
    rcases List.mem_pair.mp hmark with rfl | rfl <;> rfl
  unfold id?
  simp only [Text.trimChars_of_visible hvisible, hafter, Option.getD_some, hexId?,
    Text.uint32?_of_digits h]
  cases format with
  | auto => rfl
  | hex => rfl
  | decimal => exact absurd rfl hformat

/-- Hexadecimal digits without a mark are read as such under their own format, and otherwise told
from decimal ones by a letter. -/
theorem id?_of_isHex {format : IdFormat} {n : UInt32} {digits : String}
    (hformat : format = .hex ∨ format = .auto ∧ ∃ c ∈ digits.toList, c.isAlpha = true)
    (h : Text.IsHex n.toNat digits.toList) : format.id? digits = some n := by
  have hchars := Text.isHexDigit_of_isHex h
  have hdigits := Text.digits?_of_isHex h
  have hvisible : ∀ c ∈ digits.toList, Text.isVisible c = true := fun c hc =>
    Text.isVisible_of_isIdentifierChar (Text.isIdentifierChar_of_digits? hdigits c hc)
  have hmark : afterHexMark? digits.toList = none :=
    afterHexMark?_eq_none (fun hx => absurd (hchars 'x' hx) (by decide))
      fun hx => absurd (hchars 'X' hx) (by decide)
  unfold id?
  rcases hformat with rfl | ⟨rfl, c, hc, halpha⟩
  · simp only [Text.trimChars_of_visible hvisible, hmark, Option.getD_none, hexId?,
      Text.uint32?_of_digits hdigits]
  · have hletter : digits.toList.any isHexLetter = true := by
      rw [List.any_eq_true]
      refine ⟨c, hc, ?_⟩
      rw [isHexLetter, Text.isSome_digit?, hchars c hc, Text.not_isDigit_of_isAlpha halpha]
      rfl
    simp only [Text.trimChars_of_visible hvisible, hmark, hletter, if_true, hexId?,
      Text.uint32?_of_digits hdigits]

end IdFormat

/-! ## Entries -/

namespace Schema

inductive EntryFrame : (Json → Json) → Prop
  | object (front back : List (String × Json)) :
      EntryFrame fun id => .object (front ++ ("id", id) :: back)
  | array (others : List Json) : EntryFrame fun id => .array (id :: others)

theorem EntryFrame.record? {frame : Json → Json} (h : EntryFrame frame) :
    ∃ others : Option (List (Option Json)), ∀ id,
      (frame id).record? [["id"], ["predicate", "method"], ["params"], ["type"]] =
        others.map (some id :: ·) := by
  cases h with
  | object front back =>
      have hid (id : Json) : Json.lookupAll ["id"] (front ++ ("id", id) :: back) =
          Json.lookupAll ["id"] front ++ id :: Json.lookupAll ["id"] back := by
        simp [Json.lookupAll]
      have hother (names : List String) (hnames : "id" ∉ names) (id : Json) :
          Json.lookupAll names (front ++ ("id", id) :: back) =
            Json.lookupAll names (front ++ back) := by
        simp [Json.lookupAll, hnames]
      by_cases hsingle : Json.lookupAll ["id"] front = [] ∧ Json.lookupAll ["id"] back = []
      · obtain ⟨hfront, hback⟩ := hsingle
        refine ⟨(Json.object (front ++ back)).record?
          [["predicate", "method"], ["params"], ["type"]], fun id => ?_⟩
        simp only [Json.record?, List.mapM_cons, hid, hfront, hback,
          hother ["predicate", "method"] (by decide), hother ["params"] (by decide),
          hother ["type"] (by decide), List.nil_append, Option.map_eq_bind]
        rfl
      · -- The entry names its identifier twice.
        refine ⟨none, fun id => ?_⟩
        simp only [Json.record?, List.mapM_cons, hid]
        split
        · rename_i hnil
          exact absurd hnil (List.append_ne_nil_of_right_ne_nil _ (List.cons_ne_nil _ _))
        · rename_i hvalue
          rcases List.append_eq_singleton_iff.mp hvalue with ⟨hfront, hback⟩ | ⟨-, hback⟩
          · exact absurd ⟨hfront, (List.cons.inj hback).2⟩ hsingle
          · cases hback
        · rfl
  | array others =>
      refine ⟨(Json.array others).record? [["predicate", "method"], ["params"], ["type"]],
        fun id => ?_⟩
      simp only [Json.record?, List.length_cons, List.length_nil, Nat.add_le_add_iff_right,
        Nat.add_sub_add_right, List.map_cons, List.cons_append]
      split
      · rfl
      · rfl

theorem EntryFrame.ofJson? {frame : Json → Json} (h : EntryFrame frame) {i j : Json}
    {id other : RawId} (hi : RawId.ofJson? i = some id) (hj : RawId.ofJson? j = some other) :
    RawEntry.ofJson? (frame i) = (RawEntry.ofJson? (frame j)).map ({ · with id := id }) := by
  obtain ⟨others, hothers⟩ := h.record?
  unfold RawEntry.ofJson?
  rw [hothers i, hothers j]
  match others with
  | none => rfl
  | some [name, params, some type] =>
      show (RawId.ofJson? i).bind _ = ((RawId.ofJson? j).bind _).map _
      rw [hi, hj]
      cases textField? name <;> cases arrayField? RawParam.ofJson? params <;> cases type.string? <;>
        rfl
  | some [] | some [_] | some [_, _] | some [_, _, none] | some (_ :: _ :: none :: _ :: _)
  | some (_ :: _ :: some _ :: _ :: _) => rfl

/-- The identifier of an entry matters only by the number it denotes and by its spelling. -/
theorem RawEntry.declaration_of_id (e : RawEntry) {id id' : RawId} {format format' : IdFormat}
    (hid : id.id? format = id'.id? format') (hspelling : id.spelling = id'.spelling)
    (category : Category) :
    RawEntry.declaration { e with id := id } format category =
      RawEntry.declaration { e with id := id' } format' category := by
  unfold RawEntry.declaration
  simp only [hid, hspelling]

/-- A number is read like the text that prints it, as a decimal one. -/
theorem EntryFrame.declaration_number {frame : Json → Json} (h : EntryFrame frame) {z : Int}
    (hlow : -2 ^ 63 ≤ z) (hhigh : z < 2 ^ 63) (format : IdFormat) (category : Category) :
    (RawEntry.ofJson? (frame (.integer z))).map (·.declaration format category) =
      (RawEntry.ofJson? (frame (.string (toString z)))).map (·.declaration .decimal category) := by
  have hnumber : RawId.ofJson? (.integer z) = some (.number z) := if_pos ⟨by omega, by omega⟩
  have htext : RawId.ofJson? (.string (toString z)) = some (.text (toString z)) := rfl
  have hid : (RawId.text (toString z)).id? .decimal = (RawId.number z).id? format :=
    IdFormat.id?_of_isDecimal (by decide : IdFormat.decimal ≠ .hex) (Text.isDecimal_toString z)
  rw [h.ofJson? hnumber htext, h.ofJson? htext htext]
  simp only [Option.map_map]
  congr 1
  funext e
  exact RawEntry.declaration_of_id e hid.symm rfl category

theorem EntryFrame.id_of_text {frame : Json → Json} (h : EntryFrame frame) {text : String}
    {format : IdFormat} {category : Category} {d : Declaration}
    (hd : (RawEntry.ofJson? (frame (.string text))).map (·.declaration format category) =
      some (.ok d)) : format.id? text = some d.id := by
  have htext : RawId.ofJson? (.string text) = some (.text text) := rfl
  obtain ⟨e, he, hok⟩ := Option.map_eq_some_iff.mp hd
  rw [h.ofJson? htext htext] at he
  obtain ⟨e, -, rfl⟩ := Option.map_eq_some_iff.mp he
  obtain ⟨id, _, _, _, _, hid, -, -, -, -, rfl⟩ := RawEntry.declaration_eq_ok.mp hok
  exact hid

end Schema

/-! ## The spellings -/

/-- Every spelling of an identifier is read as the identifier by the formats that admit it, with
blanks around it or without. A decimal number that is none of 32 bits is refused, and a number in an
entry of a document is read like its decimal text, whatever the format of texts. -/
theorem IdFormat.spellings_normalise (n : UInt32) {before after : String}
    (hbefore : ∀ c ∈ before.toList, Text.isBlank c = true)
    (hafter : ∀ c ∈ after.toList, Text.isBlank c = true) :
    (∀ text : String,
      Text.IsDecimal n.toNat text.toList ∨ Text.IsDecimal n.toInt32.toInt text.toList →
        decimal.id? (before ++ text ++ after) = some n ∧
          auto.id? (before ++ text ++ after) = some n) ∧
    (∀ digits : String, Text.IsHex n.toNat digits.toList →
      (∀ mark ∈ ["0x", "0X"], hex.id? (before ++ (mark ++ digits) ++ after) = some n ∧
        auto.id? (before ++ (mark ++ digits) ++ after) = some n) ∧
      hex.id? (before ++ digits ++ after) = some n ∧
      ((∃ c ∈ digits.toList, c.isAlpha = true) →
        auto.id? (before ++ digits ++ after) = some n)) ∧
    (∀ (z : Int) (text : String), Text.IsDecimal z text.toList → z < -2 ^ 31 ∨ 2 ^ 32 ≤ z →
      decimal.id? (before ++ text ++ after) = none ∧ auto.id? (before ++ text ++ after) = none) ∧
    (∀ (z : Int) (format : IdFormat) (category : Category) (frame : Json → Json),
      -2 ^ 63 ≤ z → z < 2 ^ 63 → Schema.EntryFrame frame →
        let outcome := (Schema.RawEntry.ofJson? (frame (.integer z))).map
          (·.declaration format category)
        outcome = (Schema.RawEntry.ofJson? (frame (.string (toString z)))).map
          (·.declaration .decimal category) ∧
        ∀ d, outcome = some (.ok d) → decimal.id? (toString z) = some d.id) := by
  have hdecimal (z : Int) (text : String) (h : Text.IsDecimal z text.toList) :
      decimal.id? (before ++ text ++ after) = idOfInt? z ∧
        auto.id? (before ++ text ++ after) = idOfInt? z := by
    rw [id?_surrounded decimal text hbefore hafter, id?_surrounded auto text hbefore hafter]
    exact ⟨id?_of_isDecimal (by decide) h, id?_of_isDecimal (by decide) h⟩
  refine ⟨fun text h => ?_, fun digits h => ⟨fun mark hmark => ?_, ?_, fun hletter => ?_⟩,
    fun z text h hz => ?_, fun z format category frame hlow hhigh hframe => ?_⟩
  · rcases h with h | h
    · rw [← idOfInt?_unsigned n]
      exact hdecimal n.toNat text h
    · rw [← idOfInt?_signed n]
      exact hdecimal n.toInt32.toInt text h
  · have hdigits := Text.digits?_of_isHex h
    rw [id?_surrounded hex _ hbefore hafter, id?_surrounded auto _ hbefore hafter]
    exact ⟨id?_of_marked (by decide) hmark hdigits, id?_of_marked (by decide) hmark hdigits⟩
  · rw [id?_surrounded hex digits hbefore hafter]
    exact id?_of_isHex (.inl rfl) h
  · rw [id?_surrounded auto digits hbefore hafter]
    exact id?_of_isHex (.inr ⟨rfl, hletter⟩) h
  · rw [← idOfInt?_eq_none hz]
    exact hdecimal z text h
  · have hsame := hframe.declaration_number hlow hhigh format category
    refine ⟨hsame, fun d hd => ?_⟩
    exact hframe.id_of_text (hsame.symm.trans hd)

/-- An identifier that is negative as a signed number, and a number above all identifiers. -/
theorem IdFormat.spellings_normalise_boolFalse :
    decimal.id? " \n-1132882121\t" = some 0xbc799737 ∧
      auto.id? " \n0XBC799737\t" = some 0xbc799737 ∧ auto.id? " \n4294967296\t" = none ∧
      (let entry (id : Json) : Json :=
        .array [id, .string "boolFalse", .array [], .string "Bool"]
      (Schema.RawEntry.ofJson? (entry (.integer (-1132882121)))).map
          (·.declaration .hex .constructor) =
        (Schema.RawEntry.ofJson? (entry (.string "-1132882121"))).map
          (·.declaration .decimal .constructor)) := by
  have hbefore : ∀ c ∈ " \n".toList, Text.isBlank c = true := List.all_eq_true.mp (by decide)
  have hafter : ∀ c ∈ "\t".toList, Text.isBlank c = true := List.all_eq_true.mp (by decide)
  obtain ⟨hdecimal, hhex, hrefused, hnumber⟩ :=
    IdFormat.spellings_normalise 0xbc799737 hbefore hafter
  refine ⟨?_, ?_, ?_, ?_⟩
  · have hsigned : (0xbc799737 : UInt32).toInt32.toInt = -1132882121 := by decide
    refine (hdecimal "-1132882121" (.inr ?_)).1
    rw [hsigned]
    exact Text.isDecimal_toString (-1132882121)
  · exact ((hhex "BC799737" ⟨0, by decide⟩).1 "0X" (by decide)).2
  · exact (hrefused 4294967296 "4294967296" (Text.isDecimal_toString _) (by decide)).2
  · exact (hnumber (-1132882121) .hex .constructor _ (by decide) (by decide) (.array _)).1

end TypeLang
