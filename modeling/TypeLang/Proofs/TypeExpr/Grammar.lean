import Mathlib
import TypeLang.Proofs.TypeExpr.Printed

/-!
# What types are read from

`TypeExpr.Spells` is the grammar of type expressions, said without the order in which a reader tries
things: which texts spell which types. Whatever is read from a text is spelled by it
(`spells_of_parseChars`), so that what holds of all that is spelled holds of all that is read.
`ReadFrom` collects it: where flags, flags words, variables and names may stand in a type, and what
they are made of.
-/

namespace TypeLang

theorem Primitive.ofKeyword?_eq_none_iff {text : List Char} :
    ofKeyword? text = none ↔ ∀ kind : Primitive, lowercase text ≠ lowercase kind.keyword.toList := by
  have hall : ∀ kind : Primitive, kind ∈ all := by
    intro kind
    cases kind <;> decide
  rw [ofKeyword?, List.find?_eq_none]
  simp only [beq_iff_eq]
  exact ⟨fun h kind heq => h kind (hall kind) heq.symm, fun h kind _ heq => h kind heq.symm⟩

namespace TypeExpr

def parts : TypeExpr → List TypeExpr
  | vector inner boxed => vector inner boxed :: inner.parts
  | flag f inner => flag f inner :: inner.parts
  | primitive kind => [primitive kind]
  | var name => [var name]
  | named name bare => [named name bare]

theorem mem_parts_self (t : TypeExpr) : t ∈ t.parts := by
  cases t <;> exact List.mem_cons_self

theorem mem_names_iff_parts {t : TypeExpr} {n : QualifiedName} :
    n ∈ t.names ↔ ∃ bare, named n bare ∈ t.parts := by
  induction t with
  | primitive kind => simp [names, parts]
  | vector inner boxed ih => simp [names, parts, ih]
  | flag f inner ih => simp [names, parts, ih]
  | var name => simp [names, parts]
  | named name bare => simp [names, parts]

theorem Plain.of_mem_parts {t part : TypeExpr} (h : t.Plain) (hpart : part ∈ t.parts) :
    part.Plain := by
  induction t with
  | vector inner boxed ih =>
      rcases List.mem_cons.mp hpart with rfl | hpart
      · exact h
      · exact ih h hpart
  | flag f inner => exact h.elim
  | _ =>
      rw [List.mem_singleton.mp hpart]
      exact h

/-! ## The grammar -/

/-- The text spells the type in a declaration of the category that declares the variables. -/
inductive Spells (category : Category) (declared : List String) : List Char → TypeExpr → Prop
  /-- Blanks may stand around every type. -/
  | blanks {front text back : List Char} {t : TypeExpr}
      (around : ∀ c ∈ front ++ back, Text.isBlank c = true)
      (inside : Spells category declared text t) :
      Spells category declared (front ++ (text ++ back)) t
  | keyword {text : List Char} {kind : Primitive} (keyword : Primitive.ofKeyword? text = some kind) :
      Spells category declared text (.primitive kind)
  | flag {word digits text : List Char} {bit : Fin 32} {t : TypeExpr}
      (identifier : isIdentifier word = true)
      (number : Text.natBelow? 10 UInt64.size digits = some bit.val) (plain : t.Plain)
      (gated : Spells category declared text t) :
      Spells category declared (word ++ '.' :: (digits ++ '?' :: text))
        (.flag ⟨String.ofList word, bit⟩ t)
  | vector {text : List Char} {t : TypeExpr} {boxed : Bool} (plain : t.Plain)
      (item : Spells category declared text t) :
      Spells category declared
        ((if boxed then "Vector<" else "vector<").toList ++ (text ++ ['>'])) (.vector t boxed)
  | markedVariable {name : List Char} (method : category = .method)
      (identifier : isIdentifier name = true) :
      Spells category declared ('!' :: name) (.var (String.ofList name))
  | knownVariable {name : String} (method : category = .method) (known : name = "X" ∨ name ∈ declared) :
      Spells category declared name.toList (.var name)
  /-- A name with a mark is bare, and one without a mark is taken for nothing else. -/
  | named {n : QualifiedName} {marked : Bool} (valid : n.Valid)
      (distinct : marked = false → n.Distinct category declared) :
      Spells category declared ((if marked then ['%'] else []) ++ n.fullName.toList)
        (.named n (marked || n.isLowercase))

variable {category : Category} {declared : List String} {text raw : List Char} {t : TypeExpr}

/-! ## Reading -/

theorem flagParts?_eq_some {parts : FlagParts} (h : flagParts? raw = some parts) :
    raw = parts.word ++ '.' :: (parts.bit ++ '?' :: parts.inner) ∧
      isIdentifier parts.word = true := by
  simp only [flagParts?, bind, Option.bind_eq_some_iff] at h
  obtain ⟨⟨word, rest⟩, hword, ⟨bit, inner⟩, hbit, h⟩ := h
  simp only at h hbit
  split at h
  · rename_i hidentifier
    cases h
    rw [(Text.splitFirst_eq_some hword).1, (Text.splitFirst_eq_some hbit).1]
    exact ⟨rfl, (Bool.and_eq_true_iff.mp hidentifier).1⟩
  · cases h

theorem vectorParts?_eq_some {element : List Char} {boxed : Bool}
    (h : vectorParts? raw = some (some element, boxed)) :
    raw = (if boxed then "Vector<" else "vector<").toList ++ (element ++ ['>']) := by
  have hclosed {head rest : List Char} (hhead : Text.dropHead? head raw = some rest)
      (hlast : (Text.dropLast? '>' rest).filter (!·.isEmpty) = some element) :
      raw = head ++ (element ++ ['>']) := by
    rw [Text.dropHead?_eq_some hhead,
      Text.dropLast?_eq_some (Option.filter_eq_some_iff.mp hlast).1]
  unfold vectorParts? at h
  simp only at h
  split at h
  · rename_i rest hhead
    obtain ⟨helement, rfl⟩ := Prod.mk.inj (Option.some.inj h)
    exact hclosed hhead helement
  · obtain ⟨rest, hhead, h⟩ := Option.map_eq_some_iff.mp h
    obtain ⟨helement, rfl⟩ := Prod.mk.inj h
    exact hclosed hhead helement

theorem gate_eq_ok {f : Flag} {inner : TypeExpr} (h : gate raw f inner = .ok t) :
    t = .flag f inner := by
  unfold gate at h
  split at h <;> cases h
  rfl

theorem vectorOf_eq_ok {boxed : Bool} {inner : TypeExpr} (h : vectorOf raw boxed inner = .ok t) :
    t = .vector inner boxed := by
  unfold vectorOf at h
  split at h <;> cases h
  rfl

theorem spells_of_parseName (hkeyword : Primitive.ofKeyword? raw = none)
    (h : parseName category declared raw = .ok t) : Spells category declared raw t := by
  unfold parseName at h
  split at h
  · rename_i name hbang
    obtain rfl := Text.dropHead?_eq_some hbang
    split at h
    · cases h
    · split at h
      · rename_i hidentifier
        cases h
        exact .markedVariable rfl hidentifier
      · cases h
  · split at h
    · rename_i hvariable
      cases h
      have hknown : Spells category declared (String.ofList raw).toList (.var (String.ofList raw)) :=
        .knownVariable hvariable.1 (List.mem_cons.mp (List.contains_iff_mem.mp hvariable.2))
      rwa [String.toList_ofList] at hknown
    · rename_i hvariable
      cases hmark : Text.dropHead? ['%'] raw with
      | some plain =>
          simp only [hmark] at h
          split at h
          · rename_i n hname
            cases h
            obtain ⟨hvalid, rfl⟩ := QualifiedName.parse?_eq_some hname
            rw [Text.dropHead?_eq_some hmark]
            exact @Spells.named _ _ n true hvalid nofun
          · cases h
      | none =>
          simp only [hmark] at h
          split at h
          · rename_i n hname
            cases h
            obtain ⟨hvalid, rfl⟩ := QualifiedName.parse?_eq_some hname
            refine @Spells.named _ _ n false hvalid fun _ hglobal => ?_
            rw [QualifiedName.fullName_of_global hglobal, String.ofList_toList,
              List.contains_iff_mem, List.mem_cons] at hvariable
            rw [QualifiedName.fullName_of_global hglobal] at hkeyword
            exact ⟨hkeyword, fun hmethod =>
              not_or.mp fun hknown => hvariable ⟨hmethod, hknown⟩⟩
          · cases h

theorem spells_of_parseChars (h : parseChars category declared text = .ok t) :
    Spells category declared text t := by
  -- Each step reads the trimmed text, so that blanks are put back around what it spells.
  have htrim {text : List Char} {t : TypeExpr}
      (h : Spells category declared (Text.trimChars text) t) : Spells category declared text t := by
    obtain ⟨front, back, hsplit, hblank⟩ := Text.exists_trimChars text
    rw [hsplit]
    exact .blanks hblank h
  fun_induction parseChars category declared text generalizing t with
  | case1 => cases h
  | case2 text raw hraw kind =>
      rename_i hkind
      cases h
      exact htrim (.keyword hkind)
  | case3 => cases h
  | case4 => cases h
  | case5 text raw hraw hkeyword hquestion parts hparts bit hnumber hbit =>
      rename_i ih
      obtain ⟨inner, hinner, h⟩ := bind_eq_ok.mp h
      obtain ⟨hsplit, hidentifier⟩ := flagParts?_eq_some hparts
      have hwell := wellFormed_of_gate (wellFormed_of_parseChars hinner) h
      obtain rfl := gate_eq_ok h
      have hplain : inner.Plain := hwell.resolve_left (by simp)
      have hflag : Spells category declared _
          (.flag ⟨String.ofList parts.word, ⟨bit, hbit⟩⟩ inner) :=
        .flag hidentifier hnumber hplain (ih hinner)
      rw [← hsplit] at hflag
      exact htrim hflag
  | case6 => cases h
  | case7 text raw hraw hkeyword hquestion element boxed hparts =>
      rename_i ih
      obtain ⟨inner, hinner, h⟩ := bind_eq_ok.mp h
      have hwell := wellFormed_of_vectorOf (wellFormed_of_parseChars hinner) h
      obtain rfl := vectorOf_eq_ok h
      have hplain : inner.Plain := hwell.resolve_left (by simp)
      have hvector : Spells category declared _ (.vector inner boxed) :=
        .vector hplain (ih hinner)
      rw [← vectorParts?_eq_some hparts] at hvector
      exact htrim hvector
  | case8 => cases h
  | case9 text raw hraw hkeyword =>
      exact htrim (spells_of_parseName hkeyword h)

/-! ## Flags, variables and names -/

theorem WellFormed.eq_or_plain {part : TypeExpr} (h : t.WellFormed) (hpart : part ∈ t.parts) :
    part = t ∨ part.Plain := by
  rcases h with rfl | h
  · exact .inl (List.mem_singleton.mp hpart)
  · cases t with
    | flag f inner =>
        rcases List.mem_cons.mp hpart with hpart | hpart
        · exact .inl hpart
        · exact .inr (h.of_mem_parts hpart)
    | _ => exact .inr (Plain.of_mem_parts h hpart)

namespace Spells

theorem flag_eq {f : Flag} {inner : TypeExpr} (h : Spells category declared text (.flag f inner)) :
    isIdentifier f.word.toList = true ∧ ∃ digits,
      f.word.toList ++ '.' :: (digits ++ ['?']) <:+: text ∧
        Text.natBelow? 10 UInt64.size digits = some f.bit.val := by
  generalize ht : TypeExpr.flag f inner = t at h
  induction h with
  | @blanks front text back t _ _ ih =>
      obtain ⟨hword, digits, hwritten, hnumber⟩ := ih ht
      exact ⟨hword, digits, hwritten.trans ⟨front, back, List.append_assoc ..⟩, hnumber⟩
  | @flag word digits text bit t identifier number =>
      cases ht
      rw [String.toList_ofList]
      refine ⟨identifier, digits, ⟨[], text, ?_⟩, number⟩
      simp
  | _ => cases ht

theorem of_var_mem (h : Spells category declared text t) {name : String}
    (hpart : var name ∈ t.parts) :
    category = .method ∧ (isIdentifier name.toList = true ∨ name = "X" ∨ name ∈ declared) := by
  induction h with
  | blanks _ _ ih => exact ih hpart
  | flag _ _ _ _ ih =>
      rcases List.mem_cons.mp hpart with hpart | hpart
      · cases hpart
      · exact ih hpart
  | vector _ _ ih =>
      rcases List.mem_cons.mp hpart with hpart | hpart
      · cases hpart
      · exact ih hpart
  | markedVariable method identifier =>
      cases List.mem_singleton.mp hpart
      rw [String.toList_ofList]
      exact ⟨method, .inl identifier⟩
  | knownVariable method known =>
      cases List.mem_singleton.mp hpart
      exact ⟨method, .inr known⟩
  | _ => cases List.mem_singleton.mp hpart

/-- The mark of a name is the only one of its kind in a text. -/
theorem of_named_mem (h : Spells category declared text t) {n : QualifiedName} {bare : Bool}
    (hpart : TypeExpr.named n bare ∈ t.parts) :
    n.Valid ∧ (bare = true ↔ '%' ∈ text ∨ n.isLowercase = true) ∧
      ('%' ∉ text → n.Distinct category declared) := by
  induction h with
  | @blanks front text back t around _ ih =>
      have hmark : '%' ∈ front ++ (text ++ back) ↔ '%' ∈ text := by
        have hblank : '%' ∉ front ++ back := fun hmem => absurd (around _ hmem) (by decide)
        rw [List.mem_append, not_or] at hblank
        simp [hblank]
      rw [hmark]
      exact ih hpart
  | @flag word digits text bit t identifier number _ _ ih =>
      have hmark : '%' ∈ word ++ '.' :: (digits ++ '?' :: text) ↔ '%' ∈ text := by
        have hword : '%' ∉ word := not_mem_of_isIdentifier identifier (by decide)
        have hdigits : '%' ∉ digits := fun hmem =>
          absurd (Text.isIdentifierChar_of_natBelow? number _ hmem) (by decide)
        simp [hword, hdigits]
      rw [hmark]
      rcases List.mem_cons.mp hpart with hpart | hpart
      · cases hpart
      · exact ih hpart
  | @vector text t boxed _ _ ih =>
      have hmark : '%' ∈ (if boxed then "Vector<" else "vector<").toList ++ (text ++ ['>']) ↔
          '%' ∈ text := by
        cases boxed <;> simp
      rw [hmark]
      rcases List.mem_cons.mp hpart with hpart | hpart
      · cases hpart
      · exact ih hpart
  | @named n marked valid distinct =>
      have hmark : '%' ∈ (if marked then ['%'] else []) ++ n.fullName.toList ↔ marked = true := by
        have hname := QualifiedName.not_mem_fullName valid (c := '%') (by decide) (by decide)
        cases marked <;> simp [hname]
      rw [hmark]
      cases List.mem_singleton.mp hpart
      refine ⟨valid, ?_, fun hplain => distinct (by simpa using hplain)⟩
      rw [Bool.or_eq_true]
  | _ => cases List.mem_singleton.mp hpart

end Spells

/-! ## Types that were read -/

/-- What is known of a type that was read from a text in a declaration of the category that declares
the variables. -/
structure ReadFrom (category : Category) (declared : List String) (text : List Char)
    (t : TypeExpr) : Prop where
  /-- A flag stands only outside, and not over a flags word. Its word is an identifier, and its bit
  is the number that is written, below 32. -/
  flags : ∀ f inner, flag f inner ∈ t.parts → flag f inner = t ∧ inner ≠ .primitive .flags ∧
    isIdentifier f.word.toList = true ∧ f.bit.val < 32 ∧ ∃ digits,
      f.word.toList ++ '.' :: (digits ++ ['?']) <:+: text ∧
        Text.natBelow? 10 UInt64.size digits = some f.bit.val
  /-- A flags word stands only alone. -/
  words : primitive .flags ∈ t.parts → t = primitive .flags
  /-- Inside a vector there is neither a flag nor a flags word, however deep. -/
  vectors : ∀ inner boxed, vector inner boxed ∈ t.parts →
    ∀ part ∈ inner.parts, part.flag? = none ∧ part ≠ .primitive .flags
  variableNames : ∀ name, var name ∈ t.parts →
    category = .method ∧ (isIdentifier name.toList = true ∨ name = "X" ∨ name ∈ declared)
  /-- A name is bare if it has a mark or is lowercase, and one that has neither a mark nor a
  namespace is no keyword. -/
  names : ∀ n bare, named n bare ∈ t.parts →
    n.Valid ∧ (bare = true ↔ '%' ∈ text ∨ n.isLowercase = true) ∧
      ('%' ∉ text → n.path = [] → ∀ kind : Primitive,
        Primitive.lowercase n.name.toList ≠ Primitive.lowercase kind.keyword.toList)

theorem Plain.mem_parts {inner part : TypeExpr} (h : inner.Plain) (hpart : part ∈ inner.parts) :
    part.flag? = none ∧ part ≠ .primitive .flags := by
  have hplain := h.of_mem_parts hpart
  cases part with
  | primitive kind => exact ⟨rfl, fun hword => hplain (TypeExpr.primitive.inj hword)⟩
  | flag => exact hplain.elim
  | _ => exact ⟨rfl, nofun⟩

/-- Whatever the text, a type that is read from it is well formed and is made of what the text
spells. -/
theorem readFrom_of_parse {category : Category} {declared : List String} {text : String}
    {t : TypeExpr} (h : parse category declared text = .ok t) :
    ReadFrom category declared text.toList t := by
  have hspells : Spells category declared text.toList t := spells_of_parseChars h
  have hwell : t.WellFormed := wellFormed_of_parseChars h
  constructor
  case flags =>
    intro f inner hpart
    obtain rfl := (hwell.eq_or_plain hpart).resolve_right id
    have hinner : inner.Plain := hwell.resolve_left nofun
    obtain ⟨hword, hwritten⟩ := hspells.flag_eq
    exact ⟨rfl, (hinner.mem_parts inner.mem_parts_self).2, hword, f.bit.isLt, hwritten⟩
  case words =>
    intro hpart
    exact ((hwell.eq_or_plain hpart).resolve_right fun hplain => hplain rfl).symm
  case vectors =>
    intro inner boxed hpart part
    have hinner : inner.Plain := by
      rcases hwell.eq_or_plain hpart with rfl | hplain
      · exact hwell.resolve_left nofun
      · exact hplain
    exact hinner.mem_parts
  case variableNames =>
    intro name hpart
    exact hspells.of_var_mem hpart
  case names =>
    intro n bare hpart
    obtain ⟨hvalid, hbare, hdistinct⟩ := hspells.of_named_mem hpart
    refine ⟨hvalid, hbare, fun hmark hglobal => ?_⟩
    exact Primitive.ofKeyword?_eq_none_iff.mp (hdistinct hmark hglobal).1

/-! ## An example -/

def files : TypeExpr :=
  .flag ⟨"flags", ⟨7, by decide⟩⟩ (.vector (.named ⟨["upload"], "File"⟩ true) true)

theorem parse_files : parse .method [] "flags.07?Vector<%upload.File>" = .ok files := by
  have hfile : parseChars .method [] "%upload.File".toList =
      .ok (.named ⟨["upload"], "File"⟩ true) := by
    unfold parseChars
    rfl
  have hitem : vectorParts? "Vector<%upload.File>".toList =
      some (some "%upload.File".toList, true) := rfl
  have hvector : parseChars .method [] "Vector<%upload.File>".toList =
      .ok (.vector (.named ⟨["upload"], "File"⟩ true) true) := by
    rw [parseChars_vector rfl (by decide) rfl (by decide) hitem, hfile]
    rfl
  have hgated : flagParts? "flags.07?Vector<%upload.File>".toList =
      some ⟨"flags".toList, "07".toList, "Vector<%upload.File>".toList⟩ := rfl
  have hbit : Text.natBelow? 10 UInt64.size "07".toList = some (7 : Fin 32).val := rfl
  rw [parse, parseChars_flag rfl (by decide) rfl (by decide) hgated hbit, hvector]
  rfl

theorem readFrom_of_parse_files :
    parse .method [] "flags.07?Vector<%upload.File>" = .ok files ∧
      ReadFrom .method [] "flags.07?Vector<%upload.File>".toList files :=
  ⟨parse_files, readFrom_of_parse parse_files⟩

end TypeExpr

end TypeLang
