import Mathlib
import TypeLang.Proofs.Schema.Parsed
import TypeLang.Proofs.Text.Cut
import TypeLang.Proofs.Text.Digits

/-!
# Reading printed types

A type whose names and variables are identifiers is read again from its text
(`TypeExpr.parse_text`), if no name is taken for a built-in type or a variable there.
-/

namespace TypeLang

/-! ## Names -/

theorem isIdentifier_iff {cs : List Char} :
    isIdentifier cs = true ↔ cs ≠ [] ∧ ∀ c ∈ cs, isIdentifierChar c = true := by
  simp [isIdentifier]

theorem not_mem_of_isIdentifier {cs : List Char} (h : isIdentifier cs = true) {c : Char}
    (hc : isIdentifierChar c = false) : c ∉ cs := by
  intro hmem
  rw [(isIdentifier_iff.mp h).2 c hmem] at hc
  cases hc

namespace QualifiedName

def Valid (n : QualifiedName) : Prop :=
  ∀ segment ∈ n.path ++ [n.name], isIdentifier segment.toList = true

instance (n : QualifiedName) : Decidable n.Valid :=
  inferInstanceAs (Decidable (∀ segment ∈ n.path ++ [n.name], isIdentifier segment.toList = true))

theorem toList_fullName (n : QualifiedName) :
    n.fullName.toList = ['.'].intercalate ((n.path ++ [n.name]).map String.toList) :=
  String.toList_intercalate

theorem parse?_fullName {n : QualifiedName} (h : n.Valid) :
    parse? n.fullName.toList = some n := by
  have hall : ((n.path ++ [n.name]).map String.toList).all isIdentifier = true := by
    rw [List.all_map, List.all_eq_true]
    exact h
  have hsplit : Text.splitAll '.' n.fullName.toList = (n.path ++ [n.name]).map String.toList := by
    rw [toList_fullName]
    refine Text.splitAll_intercalate (by simp) ?_
    intro piece hpiece
    obtain ⟨segment, hsegment, rfl⟩ := List.mem_map.mp hpiece
    exact not_mem_of_isIdentifier (h segment hsegment) (by decide)
  unfold parse?
  rw [hsplit]
  simp only [hall, if_true]
  simp [Function.comp_def]

theorem parse?_eq_some {text : List Char} {n : QualifiedName} (h : parse? text = some n) :
    n.Valid ∧ n.fullName.toList = text := by
  unfold parse? at h
  simp only at h
  split at h
  · rename_i hall
    cases h
    have hne := Text.splitAll_ne_nil '.' text
    have hpieces : (((Text.splitAll '.' text).dropLast.map String.ofList) ++
        [String.ofList ((Text.splitAll '.' text).getLastD [])]).map String.toList =
        Text.splitAll '.' text := by
      simp [Function.comp_def, List.getLastD_eq_getLast?, List.getLast?_eq_some_getLast hne,
        List.dropLast_append_getLast]
    refine ⟨fun segment hsegment => ?_, ?_⟩
    · refine List.all_eq_true.mp hall segment.toList ?_
      rw [← hpieces]
      exact List.mem_map_of_mem hsegment
    · rw [toList_fullName, hpieces, Text.intercalate_splitAll]
  · cases h

theorem mem_fullName {n : QualifiedName} (h : n.Valid) :
    ∀ c ∈ n.fullName.toList, c = '.' ∨ isIdentifierChar c = true := by
  intro c hc
  rw [toList_fullName] at hc
  rcases Text.mem_intercalate hc with rfl | ⟨piece, hpiece, hc⟩
  · exact .inl rfl
  · obtain ⟨segment, hsegment, rfl⟩ := List.mem_map.mp hpiece
    exact .inr ((isIdentifier_iff.mp (h segment hsegment)).2 c hc)

theorem fullName_of_global {n : QualifiedName} (h : n.path = []) : n.fullName = n.name := by
  unfold fullName
  rw [h]
  rfl

theorem dot_mem_fullName {n : QualifiedName} (h : n.path ≠ []) : '.' ∈ n.fullName.toList := by
  rw [toList_fullName]
  obtain ⟨first, path, hpath⟩ := List.exists_cons_of_ne_nil h
  rw [hpath, List.cons_append, List.map_cons]
  obtain ⟨next, others, hrest⟩ :=
    List.exists_cons_of_ne_nil (l := (path ++ [n.name]).map String.toList) (by simp)
  rw [hrest, List.intercalate_cons_cons]
  simp

theorem fullName_ne_nil {n : QualifiedName} (h : n.Valid) : n.fullName.toList ≠ [] := by
  by_cases hpath : n.path = []
  · rw [fullName_of_global hpath]
    exact (isIdentifier_iff.mp (h n.name (by simp))).1
  · exact List.ne_nil_of_mem (dot_mem_fullName hpath)

end QualifiedName

/-! ## Characters of types -/

def typeMarks : List Char :=
  ['#', '.', '?', '!', '%', '<', '>']

def isTypeChar (c : Char) : Bool :=
  isIdentifierChar c || typeMarks.contains c

theorem isTypeChar_of_isIdentifierChar {c : Char} (h : isIdentifierChar c = true) :
    isTypeChar c = true := by
  rw [isTypeChar, h, Bool.true_or]

theorem isTypeChar_of_isIdentifier {cs : List Char} (h : isIdentifier cs = true) :
    ∀ c ∈ cs, isTypeChar c = true :=
  fun c hc => isTypeChar_of_isIdentifierChar ((isIdentifier_iff.mp h).2 c hc)

theorem isVisible_of_isTypeChar {c : Char} (h : isTypeChar c = true) : Text.isVisible c = true := by
  have hmarks : typeMarks.all Text.isVisible = true := by decide
  rcases Bool.or_eq_true_iff.mp h with h | h
  · exact Text.isVisible_of_isIdentifierChar h
  · exact List.all_eq_true.mp hmarks c (List.contains_iff_mem.mp h)

theorem QualifiedName.isTypeChar_fullName {n : QualifiedName} (h : n.Valid) :
    ∀ c ∈ n.fullName.toList, isTypeChar c = true := by
  intro c hc
  rcases mem_fullName h c hc with rfl | hc
  · decide
  · exact isTypeChar_of_isIdentifierChar hc

theorem QualifiedName.not_mem_fullName {n : QualifiedName} (h : n.Valid) {c : Char}
    (hdot : c ≠ '.') (hc : isIdentifierChar c = false) : c ∉ n.fullName.toList := by
  intro hmem
  rcases mem_fullName h c hmem with hmem | hmem
  · exact hdot hmem
  · rw [hc] at hmem
    cases hmem

namespace Primitive

theorem ofKeyword?_eq_none {c : Char} {text : List Char} (hc : c ∈ ['.', '?', '!', '%', '<'])
    (h : c ∈ text) : ofKeyword? text = none := by
  have hmarks : ['.', '?', '!', '%', '<'].all (fun c =>
      all.all fun p => !(lowercase p.keyword.toList).contains c.toLower) = true := by decide
  rw [ofKeyword?, List.find?_eq_none]
  intro p hp heq
  have hmem : c.toLower ∈ lowercase text := List.mem_map_of_mem h
  rw [← eq_of_beq heq] at hmem
  have hmark := List.all_eq_true.mp (List.all_eq_true.mp hmarks c hc) p hp
  rw [List.contains_iff_mem.mpr hmem] at hmark
  cases hmark

theorem ofKeyword?_keyword (p : Primitive) : ofKeyword? p.keyword.toList = some p := by
  cases p <;> decide

theorem isTypeChar_keyword (p : Primitive) : ∀ c ∈ p.keyword.toList, isTypeChar c = true :=
  List.all_eq_true.mp (by cases p <;> decide)

end Primitive

/-! ## Bits -/

namespace Flag

theorem natBelow?_bit : ∀ bit : Fin 32,
    Text.natBelow? 10 UInt64.size (toString bit.val).toList = some bit.val := by
  decide

theorem isDigit_bit : ∀ bit : Fin 32, (toString bit.val).toList.head?.any Char.isDigit = true := by
  decide

theorem isIdentifier_bit : ∀ bit : Fin 32, isIdentifier (toString bit.val).toList = true := by
  decide

end Flag

/-! ## Legible types -/

/-- The name, written without a mark, is taken neither for a built-in type nor for a variable. -/
def QualifiedName.Distinct (category : Category) (declared : List String) (n : QualifiedName) :
    Prop :=
  n.path = [] → Primitive.ofKeyword? n.name.toList = none ∧
    (category = .method → n.name ≠ "X" ∧ n.name ∉ declared)

instance (category : Category) (declared : List String) (n : QualifiedName) :
    Decidable (n.Distinct category declared) :=
  inferInstanceAs (Decidable (n.path = [] → Primitive.ofKeyword? n.name.toList = none ∧
    (category = .method → n.name ≠ "X" ∧ n.name ∉ declared)))

namespace TypeExpr

def Legible (category : Category) (declared : List String) : TypeExpr → Prop
  | primitive _ => True
  | vector inner _ => inner.Legible category declared
  | flag f inner => isIdentifier f.word.toList = true ∧ inner.Legible category declared
  | var name => category = .method ∧ isIdentifier name.toList = true
  | named name bare => name.Valid ∧ (name.isLowercase = true → bare = true) ∧
      (name.isLowercase = true ∨ bare = false → name.Distinct category declared)

instance decidableLegible (category : Category) (declared : List String) :
    (t : TypeExpr) → Decidable (t.Legible category declared)
  | primitive _ => inferInstanceAs (Decidable True)
  | vector inner _ => decidableLegible category declared inner
  | flag f inner =>
    have := decidableLegible category declared inner
    inferInstanceAs
      (Decidable (isIdentifier f.word.toList = true ∧ inner.Legible category declared))
  | var name => inferInstanceAs (Decidable (category = .method ∧ isIdentifier name.toList = true))
  | named name bare =>
    inferInstanceAs (Decidable (name.Valid ∧ (name.isLowercase = true → bare = true) ∧
      (name.isLowercase = true ∨ bare = false → name.Distinct category declared)))

instance decidablePlain : (t : TypeExpr) → Decidable t.Plain
  | primitive kind => inferInstanceAs (Decidable (kind ≠ .flags))
  | vector inner _ => decidablePlain inner
  | flag _ _ => inferInstanceAs (Decidable False)
  | var _ => inferInstanceAs (Decidable True)
  | named _ _ => inferInstanceAs (Decidable True)

instance (t : TypeExpr) : Decidable t.WellFormed :=
  inferInstanceAs (Decidable (t = .primitive .flags ∨ t.erased.Plain))

def Printable (category : Category) (declared : List String) (t : TypeExpr) : Prop :=
  t.WellFormed ∧ t.Legible category declared

instance (category : Category) (declared : List String) (t : TypeExpr) :
    Decidable (t.Printable category declared) :=
  inferInstanceAs (Decidable (t.WellFormed ∧ t.Legible category declared))

variable {category : Category} {declared : List String}

theorem toList_text_vector (inner : TypeExpr) (boxed : Bool) :
    (vector inner boxed).text.toList =
      (if boxed then "Vector<" else "vector<").toList ++ (inner.text.toList ++ ['>']) := by
  simp [text]

theorem toList_text_flag (f : Flag) (inner : TypeExpr) :
    (flag f inner).text.toList =
      f.word.toList ++ '.' :: ((toString f.bit.val).toList ++ '?' :: inner.text.toList) := by
  simp [text, Flag.text]

theorem toList_text_var (name : String) : (var name).text.toList = '!' :: name.toList := by
  simp [text]

theorem toList_text_named (name : QualifiedName) (bare : Bool) :
    (named name bare).text.toList =
      (if bare && !name.isLowercase then ['%'] else []) ++ name.fullName.toList := by
  simp only [text, String.toList_append]
  split <;> rfl

theorem isTypeChar_text {t : TypeExpr} (h : t.Legible category declared) :
    ∀ c ∈ t.text.toList, isTypeChar c = true := by
  induction t with
  | primitive kind => exact kind.isTypeChar_keyword
  | vector inner boxed ih =>
      intro c hc
      rw [toList_text_vector] at hc
      rcases List.mem_append.mp hc with hc | hc
      · have hhead : (if boxed then "Vector<" else "vector<").toList.all isTypeChar = true := by
          cases boxed <;> decide
        exact List.all_eq_true.mp hhead c hc
      rcases List.mem_append.mp hc with hc | hc
      · exact ih h c hc
      · rw [List.mem_singleton.mp hc]
        decide
  | flag f inner ih =>
      intro c hc
      rw [toList_text_flag] at hc
      rcases List.mem_append.mp hc with hc | hc
      · exact isTypeChar_of_isIdentifier h.1 c hc
      rcases List.mem_cons.mp hc with rfl | hc
      · decide
      rcases List.mem_append.mp hc with hc | hc
      · exact isTypeChar_of_isIdentifier (Flag.isIdentifier_bit f.bit) c hc
      rcases List.mem_cons.mp hc with rfl | hc
      · decide
      · exact ih h.2 c hc
  | var name =>
      intro c hc
      rw [toList_text_var] at hc
      rcases List.mem_cons.mp hc with rfl | hc
      · decide
      · exact isTypeChar_of_isIdentifier h.2 c hc
  | named name bare =>
      intro c hc
      rw [toList_text_named] at hc
      rcases List.mem_append.mp hc with hc | hc
      · split at hc
        · rw [List.mem_singleton.mp hc]
          decide
        · cases hc
      · exact QualifiedName.isTypeChar_fullName h.1 c hc

theorem text_ne_nil {t : TypeExpr} (h : t.Legible category declared) : t.text.toList ≠ [] := by
  cases t with
  | primitive kind => cases kind <;> decide
  | vector inner boxed =>
      rw [toList_text_vector]
      simp
  | flag f inner =>
      rw [toList_text_flag]
      simp
  | var name =>
      rw [toList_text_var]
      simp
  | named name bare =>
      rw [toList_text_named]
      simp [QualifiedName.fullName_ne_nil h.1]

theorem trimChars_text {t : TypeExpr} (h : t.Legible category declared) :
    Text.trimChars t.text.toList = t.text.toList :=
  Text.trimChars_of_visible fun c hc => isVisible_of_isTypeChar (isTypeChar_text h c hc)

theorem question_not_mem_text {t : TypeExpr} (hplain : t.Plain) (h : t.Legible category declared) :
    '?' ∉ t.text.toList := by
  induction t with
  | primitive kind => cases kind <;> decide
  | vector inner boxed ih =>
      rw [toList_text_vector]
      have hinner := ih hplain h
      cases boxed <;> simp [hinner]
  | flag f inner => exact hplain.elim
  | var name =>
      rw [toList_text_var, List.mem_cons, not_or]
      exact ⟨by decide, not_mem_of_isIdentifier h.2 (by decide)⟩
  | named name bare =>
      rw [toList_text_named, List.mem_append, not_or]
      refine ⟨?_, QualifiedName.not_mem_fullName h.1 (by decide) (by decide)⟩
      split <;> decide

/-! ## Reading -/

theorem vectorParts?_eq_none {raw : List Char} (h : '<' ∉ raw) : vectorParts? raw = none := by
  rw [vectorParts?, Text.dropHead?_eq_none (c := '<') (by decide) h,
    Text.dropHead?_eq_none (c := '<') (by decide) h]
  rfl

theorem vectorParts?_text {inner : List Char} (hne : inner ≠ []) (boxed : Bool) :
    vectorParts? ((if boxed then "Vector<" else "vector<").toList ++ (inner ++ ['>'])) =
      some (some inner, boxed) := by
  have helement : (Text.dropLast? '>' (inner ++ ['>'])).filter (!·.isEmpty) = some inner := by
    rw [Text.dropLast?_concat, Option.filter_some, if_pos (by simpa using hne)]
  unfold vectorParts?
  cases boxed with
  | true =>
      simp only [if_true, Text.dropHead?_append, helement]
  | false =>
      have hhead : Text.dropHead? "Vector<".toList ("vector<".toList ++ (inner ++ ['>'])) = none :=
        rfl
      simp only [Bool.false_eq_true, if_false, hhead, Text.dropHead?_append, helement,
        Option.map_some]

theorem flagParts?_text {word : List Char} (hword : isIdentifier word = true) (bit : Fin 32)
    (inner : List Char) :
    flagParts? (word ++ '.' :: ((toString bit.val).toList ++ '?' :: inner)) =
      some ⟨word, (toString bit.val).toList, inner⟩ := by
  have hbit := Flag.isIdentifier_bit bit
  have hdigit : ((toString bit.val).toList ++ '?' :: inner).head?.any Char.isDigit = true := by
    rw [List.head?_append_of_ne_nil _ (isIdentifier_iff.mp hbit).1]
    exact Flag.isDigit_bit bit
  unfold flagParts?
  simp only [Text.splitFirst_append (not_mem_of_isIdentifier hword (c := '.') (by decide)),
    Text.splitFirst_append (not_mem_of_isIdentifier hbit (c := '?') (by decide)),
    Option.bind_eq_bind, Option.bind_some, hword, hdigit, Bool.and_self, if_true]

section

variable {raw : List Char} (htrim : Text.trimChars raw = raw) (hne : raw ≠ [])

include htrim hne

theorem parseChars_keyword {p : Primitive} (h : Primitive.ofKeyword? raw = some p) :
    parseChars category declared raw = .ok (.primitive p) := by
  rw [parseChars]
  simp only [htrim, List.isEmpty_iff, hne, if_false, h]

variable (hkeyword : Primitive.ofKeyword? raw = none)

include hkeyword

theorem parseChars_flag (hquestion : '?' ∈ raw) {parts : FlagParts}
    (hparts : flagParts? raw = some parts) {bit : Fin 32}
    (hbit : Text.natBelow? 10 UInt64.size parts.bit = some bit.val) :
    parseChars category declared raw =
      parseChars category declared parts.inner >>= gate raw ⟨String.ofList parts.word, bit⟩ := by
  rw [parseChars]
  simp only [htrim, List.isEmpty_iff, hne, if_false, hkeyword, List.contains_iff_mem, hquestion,
    if_true]
  split <;> rename_i hparts' <;> rw [htrim, hparts] at hparts' <;> cases hparts'
  simp only [hbit, bit.isLt, dif_pos]

theorem parseChars_vector (hquestion : '?' ∉ raw) {element : List Char} {boxed : Bool}
    (hparts : vectorParts? raw = some (some element, boxed)) :
    parseChars category declared raw =
      parseChars category declared element >>= vectorOf raw boxed := by
  rw [parseChars]
  simp only [htrim, List.isEmpty_iff, hne, if_false, hkeyword, List.contains_iff_mem, hquestion]
  split <;> rename_i hparts' <;> rw [htrim, hparts] at hparts' <;> cases hparts'
  rfl

theorem parseChars_name (hquestion : '?' ∉ raw) (hangle : '<' ∉ raw) :
    parseChars category declared raw = parseName category declared raw := by
  have hparts := vectorParts?_eq_none hangle
  rw [parseChars]
  simp only [htrim, List.isEmpty_iff, hne, if_false, hkeyword, List.contains_iff_mem, hquestion]
  split <;> rename_i hparts' <;> rw [htrim, hparts] at hparts' <;> cases hparts'

end

theorem parseName_var {name : String} (h : isIdentifier name.toList = true) :
    parseName .method declared ('!' :: name.toList) = .ok (.var name) := by
  unfold parseName
  simp only [Text.dropHead?, if_true, h, String.ofList_toList]

section

variable (hdeclared : ∀ v ∈ declared, isIdentifier v.toList = true)

include hdeclared

theorem not_declared (raw : List Char) {c : Char} (hmem : c ∈ raw)
    (hc : isIdentifierChar c = false) : ("X" :: declared).contains (String.ofList raw) = false := by
  rw [Bool.eq_false_iff, ne_eq, List.contains_iff_mem]
  intro h
  have hidentifier : isIdentifier (String.ofList raw).toList = true := by
    rcases List.mem_cons.mp h with h | h
    · rw [h]
      decide
    · exact hdeclared _ h
  rw [String.toList_ofList] at hidentifier
  exact not_mem_of_isIdentifier hidentifier hc hmem

theorem parseName_marked {name : QualifiedName} (h : name.Valid) :
    parseName category declared ('%' :: name.fullName.toList) = .ok (.named name true) := by
  have hvar := not_declared hdeclared ('%' :: name.fullName.toList) List.mem_cons_self (by decide)
  have hbang : Text.dropHead? ['!'] ('%' :: name.fullName.toList) = none := rfl
  have hmark : Text.dropHead? ['%'] ('%' :: name.fullName.toList) = some name.fullName.toList := rfl
  unfold parseName
  simp only [hbang, hvar, Bool.false_eq_true, and_false, if_false, hmark,
    QualifiedName.parse?_fullName h, Bool.true_or]

theorem parseName_plain {name : QualifiedName} (h : name.Valid)
    (hdistinct : name.Distinct category declared) :
    parseName category declared name.fullName.toList = .ok (.named name name.isLowercase) := by
  have hvar : ¬(category = .method ∧
      ("X" :: declared).contains (String.ofList name.fullName.toList) = true) := by
    rintro ⟨hmethod, hcontains⟩
    by_cases hpath : name.path = []
    · rw [String.ofList_toList, QualifiedName.fullName_of_global hpath, List.contains_iff_mem,
        List.mem_cons] at hcontains
      obtain ⟨hX, hother⟩ := (hdistinct hpath).2 hmethod
      exact hcontains.elim hX hother
    · rw [not_declared hdeclared _ (QualifiedName.dot_mem_fullName hpath) (by decide)] at hcontains
      cases hcontains
  have hbang : Text.dropHead? ['!'] name.fullName.toList = none :=
    Text.dropHead?_eq_none List.mem_cons_self
      (QualifiedName.not_mem_fullName h (by decide) (by decide))
  have hmark : Text.dropHead? ['%'] name.fullName.toList = none :=
    Text.dropHead?_eq_none List.mem_cons_self
      (QualifiedName.not_mem_fullName h (by decide) (by decide))
  unfold parseName
  simp only [hbang, hvar, if_false, hmark, QualifiedName.parse?_fullName h, Bool.false_or]

theorem parseChars_named {name : QualifiedName} {bare : Bool}
    (h : (named name bare).Legible category declared) :
    parseChars category declared (named name bare).text.toList = .ok (.named name bare) := by
  have htrim := trimChars_text h
  have hne := text_ne_nil h
  have hquestion := question_not_mem_text (t := named name bare) trivial h
  obtain ⟨hvalid, hbare, hdistinct⟩ := h
  have hangle := QualifiedName.not_mem_fullName hvalid (c := '<') (by decide) (by decide)
  rw [toList_text_named] at htrim hne hquestion ⊢
  by_cases hmarked : bare = true ∧ name.isLowercase = false
  · obtain ⟨rfl, hupper⟩ := hmarked
    simp only [hupper, Bool.not_false, Bool.and_self, if_true, List.singleton_append]
      at htrim hne hquestion ⊢
    rw [parseChars_name htrim hne
      (Primitive.ofKeyword?_eq_none (c := '%') (by decide) List.mem_cons_self) hquestion]
    · exact parseName_marked hdeclared hvalid
    · rw [List.mem_cons, not_or]
      exact ⟨by decide, hangle⟩
  · have hunmarked : (bare && !name.isLowercase) = false := by simpa using hmarked
    have hboxing : name.isLowercase = bare := by
      cases hlower : name.isLowercase <;> simp_all
    have hdistinct' := hdistinct (by cases bare <;> simp [hboxing])
    have hkeyword : Primitive.ofKeyword? name.fullName.toList = none := by
      by_cases hpath : name.path = []
      · rw [QualifiedName.fullName_of_global hpath]
        exact (hdistinct' hpath).1
      · exact Primitive.ofKeyword?_eq_none (by decide) (QualifiedName.dot_mem_fullName hpath)
    simp only [hunmarked, Bool.false_eq_true, if_false, List.nil_append] at htrim hne hquestion ⊢
    rw [parseChars_name htrim hne hkeyword hquestion hangle,
      parseName_plain hdeclared hvalid hdistinct', hboxing]

theorem parseChars_of_plain {t : TypeExpr} (hplain : t.Plain) (h : t.Legible category declared) :
    parseChars category declared t.text.toList = .ok t := by
  have htrim := trimChars_text h
  have hne := text_ne_nil h
  have hquestion := question_not_mem_text hplain h
  -- On the type: inside the angles of a vector stands the text of its element.
  induction t with
  | primitive kind => exact parseChars_keyword htrim hne kind.ofKeyword?_keyword
  | vector inner boxed ih =>
      have hinner := ih hplain h (trimChars_text (t := inner) h) (text_ne_nil (t := inner) h)
        (question_not_mem_text (t := inner) hplain h)
      have hangle : '<' ∈ (vector inner boxed).text.toList := by
        rw [toList_text_vector]
        cases boxed <;> simp
      have hparts := vectorParts?_text (text_ne_nil (t := inner) h) boxed
      rw [← toList_text_vector] at hparts
      rw [parseChars_vector htrim hne (Primitive.ofKeyword?_eq_none (by decide) hangle) hquestion
        hparts, hinner]
      cases inner with
      | primitive kind => cases kind <;> first | rfl | exact absurd rfl hplain
      | flag f inner => exact hplain.elim
      | _ => rfl
  | flag f inner => exact hplain.elim
  | var name =>
      obtain ⟨rfl, hname⟩ := h
      rw [toList_text_var] at htrim hne hquestion ⊢
      rw [parseChars_name htrim hne
        (Primitive.ofKeyword?_eq_none (c := '!') (by decide) List.mem_cons_self) hquestion]
      · exact parseName_var hname
      · rw [List.mem_cons, not_or]
        exact ⟨by decide, not_mem_of_isIdentifier hname (by decide)⟩
  | named name bare => exact parseChars_named hdeclared h

theorem parse_text {t : TypeExpr} (h : t.Printable category declared) :
    parse category declared t.text = .ok t := by
  obtain ⟨hwell, hlegible⟩ := h
  have htrim := trimChars_text hlegible
  have hne := text_ne_nil hlegible
  unfold parse
  rcases hwell with rfl | hplain
  · exact parseChars_keyword htrim hne (Primitive.ofKeyword?_keyword .flags)
  · cases t with
    | flag f inner =>
        have hquestion : '?' ∈ (flag f inner).text.toList := by
          rw [toList_text_flag]
          simp
        have hparts := flagParts?_text hlegible.1 f.bit inner.text.toList
        rw [← toList_text_flag] at hparts
        have hinner := parseChars_of_plain hdeclared (t := inner) hplain hlegible.2
        rw [parseChars_flag htrim hne (Primitive.ofKeyword?_eq_none (by decide) hquestion) hquestion
          hparts (Flag.natBelow?_bit f.bit)]
        simp only [hinner, String.ofList_toList]
        cases inner with
        | primitive kind => cases kind <;> first | rfl | exact absurd rfl hplain
        | flag f inner => exact hplain.elim
        | _ => rfl
    | _ => exact parseChars_of_plain hdeclared hplain hlegible

theorem parseResult_text {t : TypeExpr} (h : t.Printable category declared) :
    parseResult category declared t.text = .ok t := by
  have hsplit : Text.splitFirst ' ' t.text.toList = none := by
    rw [Text.splitFirst_eq_none]
    intro hmem
    exact absurd (isTypeChar_text h.2 ' ' hmem) (by decide)
  unfold parseResult
  rw [hsplit]
  exact parse_text hdeclared h

end

theorem isIdentifier_of_mem_freeVariables {t : TypeExpr} (h : t.Legible category declared) :
    ∀ v ∈ t.freeVariables, isIdentifier v.toList = true := by
  induction t with
  | primitive => simp [freeVariables]
  | vector inner boxed ih => exact ih h
  | flag f inner ih => exact ih h.2
  | var name =>
      intro v hv
      rw [List.mem_singleton.mp hv]
      exact h.2
  | named => simp [freeVariables]

end TypeExpr

end TypeLang
