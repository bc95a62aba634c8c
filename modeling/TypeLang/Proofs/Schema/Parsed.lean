import Mathlib
import TypeLang.Proofs.Plan.Compiled
import TypeLang.Schema.Reader

/-!
# What parsing guarantees

A type expression that was parsed is a flags word, or has none inside and a flag only outside. The
types of the parameters of every schema that was read, from declarations or from a document, are
such type expressions. In a schema that was read, each declaration stands in the list of its
category.
-/

namespace TypeLang

namespace TypeExpr

def Plain : TypeExpr → Prop
  | primitive kind => kind ≠ .flags
  | vector inner _ => inner.Plain
  | flag _ _ => False
  | var _ => True
  | named _ _ => True

/-- A flags word stands only alone, and a flag only outside. -/
def WellFormed (t : TypeExpr) : Prop :=
  t = .primitive .flags ∨ t.erased.Plain

theorem wellFormed_of_gate {raw : List Char} {flag : Flag} {inner t : TypeExpr}
    (hinner : inner.WellFormed) (h : gate raw flag inner = .ok t) : t.WellFormed := by
  unfold gate at h
  split at h
  · cases h
  · cases h
  · rename_i hword hflag
    cases h
    rcases hinner with hinner | hinner
    · exact absurd hinner hword
    · cases inner with
      | flag gate gated => exact (hflag gate gated rfl).elim
      | _ => exact .inr hinner

theorem wellFormed_of_vectorOf {raw : List Char} {boxed : Bool} {inner t : TypeExpr}
    (hinner : inner.WellFormed) (h : vectorOf raw boxed inner = .ok t) : t.WellFormed := by
  unfold vectorOf at h
  split at h
  · cases h
  · cases h
  · rename_i hword hflag
    cases h
    rcases hinner with hinner | hinner
    · exact absurd hinner hword
    · cases inner with
      | flag gate gated => exact (hflag gate gated rfl).elim
      | _ => exact .inr hinner

theorem wellFormed_of_parseName {category : Category} {declared : List String} {raw : List Char}
    {t : TypeExpr} (h : parseName category declared raw = .ok t) : t.WellFormed := by
  unfold parseName at h
  split at h
  · split at h
    · cases h
    · split at h
      · cases h
        exact .inr trivial
      · cases h
  · split at h
    · cases h
      exact .inr trivial
    · split at h
      split at h
      · cases h
        exact .inr trivial
      · cases h

theorem wellFormed_of_parseChars {category : Category} {declared : List String}
    {text : List Char} {t : TypeExpr} (h : parseChars category declared text = .ok t) :
    t.WellFormed := by
  fun_induction parseChars category declared text generalizing t with
  | case1 => cases h
  | case2 text raw hraw kind =>
      cases h
      by_cases hword : kind = .flags
      · rw [hword]
        exact .inl rfl
      · exact .inr hword
  | case3 => cases h
  | case4 => cases h
  | case5 =>
      rename_i ih
      obtain ⟨inner, hinner, h⟩ := bind_eq_ok.mp h
      exact wellFormed_of_gate (ih hinner) h
  | case6 => cases h
  | case7 =>
      rename_i ih
      obtain ⟨inner, hinner, h⟩ := bind_eq_ok.mp h
      exact wellFormed_of_vectorOf (ih hinner) h
  | case8 => cases h
  | case9 => exact wellFormed_of_parseName h

end TypeExpr

def Declaration.WellTyped (d : Declaration) : Prop :=
  ∀ q ∈ d.params, q.type.WellFormed

/-! ## Declarations -/

namespace DeclarationReader

theorem wellFormed_of_addParam {d d' : Draft} {name type : String}
    (hd : ∀ q ∈ d.params, q.type.WellFormed) (h : d.addParam name type = .ok d') :
    ∀ q ∈ d'.params, q.type.WellFormed := by
  unfold Draft.addParam at h
  split at h
  · rename_i t ht
    cases h
    intro q hq
    rcases List.mem_cons.mp hq with rfl | hq
    · exact TypeExpr.wellFormed_of_parseChars ht
    · exact hd q hq
  · cases h

theorem wellTyped_of_finish {d : Draft} {result : String} {r : Declaration}
    (hd : ∀ q ∈ d.params, q.type.WellFormed) (h : d.finish result = .ok r) : r.WellTyped := by
  unfold Draft.finish at h
  split at h
  · cases h
    intro q hq
    exact hd q (List.mem_reverse.mp hq)
  · cases h

theorem wellTyped_of_body {d : Draft} {s t : Lexer} {r : Declaration}
    (hd : ∀ q ∈ d.params, q.type.WellFormed) (h : body d s = (.ok r, t)) : r.WellTyped := by
  fun_induction body d s with
  | case1 => cases h
  | case2 d s t' token hfirst name hkind ih => exact ih hd h
  | case3 d s t' token hfirst hkind ih => exact ih hd h
  | case4 d s t' token hfirst hkind ih => exact ih hd h
  | case5 => cases h
  | case6 d s t' token hfirst name hkind u next hsecond type hnext d' hparam ih =>
      exact ih (wellFormed_of_addParam hd hparam) h
  | case7 => cases h
  | case8 => cases h
  | case9 d s t' token hfirst type hkind =>
      exact wellTyped_of_finish hd (Prod.mk.inj h).1
  | case10 => cases h

theorem wellTyped_of_named {spelling : String} {s t : Lexer} {r : Declaration}
    (h : named spelling s = (.ok r, t)) : r.WellTyped := by
  unfold named at h
  split at h
  · cases h
  · split at h
    · split at h
      · refine wellTyped_of_body ?_ h
        intro q hq
        cases hq
      · cases h
    · cases h

theorem wellTyped_of_declaration? {s t : Lexer} {r : Declaration}
    (h : declaration? s = (.ok (some r), t)) : r.WellTyped := by
  fun_induction declaration? s with
  | case1 => cases h
  | case2 => cases h
  | case3 s token u hnext c hkind ih => exact ih h
  | case4 s token u hnext spelling hkind r' v hnamed =>
      cases h
      exact wellTyped_of_named hnamed
  | case5 => cases h
  | case6 => cases h

theorem wellTyped_of_next {r t : DeclarationReader} {d : Declaration}
    (h : r.next = (some (.ok d), t)) : d.WellTyped := by
  unfold next at h
  split at h
  · cases h
  · split at h
    · rename_i hd
      cases h
      exact wellTyped_of_declaration? hd
    · cases h
    · cases h

theorem wellTyped_of_itemsFrom {done : List (Except ParseError Declaration)}
    {r : DeclarationReader} (hdone : ∀ d, .ok d ∈ done → d.WellTyped) {d : Declaration}
    (h : .ok d ∈ (itemsFrom done r).1) : d.WellTyped := by
  fun_induction itemsFrom done r with
  | case1 done r t hnext => exact hdone d (List.mem_reverse.mp h)
  | case2 done r e t hnext =>
      rcases List.mem_cons.mp (List.mem_reverse.mp h) with h | h
      · cases h
      · exact hdone d h
  | case3 done r d' t hnext ih =>
      refine ih ?_ h
      intro other hother
      rcases List.mem_cons.mp hother with hother | hother
      · cases hother
        exact wellTyped_of_next hnext
      · exact hdone other hother

end DeclarationReader

/-! ## Schemas -/

namespace Schema

theorem mem_declarations_ofDeclarations {config : SchemaConfig} {layer : Option UInt32}
    {ds : List Declaration} {d : Declaration}
    (h : d ∈ (ofDeclarations config layer ds).declarations) : d ∈ ds := by
  rcases List.mem_append.mp h with h | h
  · exact List.mem_of_mem_filter h
  · exact List.mem_of_mem_filter h

theorem wellTyped_of_ofSource {config : SchemaConfig} {source : List Delivery} {s : Schema}
    (h : ofSource config source = .ok s) {d : Declaration} (hd : d ∈ s.declarations) :
    d.WellTyped := by
  unfold ofSource at h
  obtain ⟨ds, hds, h⟩ := bind_eq_ok.mp h
  cases h
  obtain ⟨item, hitem, hok⟩ :=
    exists_mem_of_forall₂ (mapM_eq_ok.mp hds) (mem_declarations_ofDeclarations hd)
  replace hok : item = .ok d := hok
  rw [hok] at hitem
  refine DeclarationReader.wellTyped_of_itemsFrom ?_ hitem
  intro other hother
  cases hother

theorem RawEntry.declaration_eq_ok {e : RawEntry} {format : IdFormat} {category : Category}
    {d : Declaration} :
    e.declaration format category = .ok d ↔ ∃ id spelling name params result,
      e.id.id? format = some id ∧ e.name = some spelling ∧
      QualifiedName.parse? spelling.toList = some name ∧
      List.Forall₂ (fun p q => q.name = p.name ∧
        TypeExpr.parse category (e.params.filterMap RawParam.declares?) p.type = .ok q.type)
        e.params params ∧
      TypeExpr.parseResult category (e.params.filterMap RawParam.declares?) e.type = .ok result ∧
      d = ⟨category, id, name, params, result⟩ := by
  constructor
  · intro h
    unfold declaration at h
    cases hid : e.id.id? format with
    | none =>
        rw [hid] at h
        cases h
    | some id =>
        cases hspelling : e.name with
        | none =>
            rw [hid, hspelling] at h
            cases h
        | some spelling =>
            rw [hid, hspelling] at h
            simp only [pure_bind] at h
            cases hname : QualifiedName.parse? spelling.toList with
            | none =>
                rw [hname] at h
                cases h
            | some name =>
                rw [hname] at h
                obtain ⟨params, hparams, h⟩ := bind_eq_ok.mp h
                split at h
                · rename_i result hresult
                  cases h
                  refine ⟨id, spelling, name, params, result, rfl, rfl, hname, ?_, hresult, rfl⟩
                  refine (mapM_eq_ok.mp hparams).imp fun p q hq => ?_
                  split at hq
                  · rename_i type htype
                    cases hq
                    exact ⟨rfl, htype⟩
                  · cases hq
                · cases h
  · rintro ⟨id, spelling, name, params, result, hid, hspelling, hname, hparams, hresult, rfl⟩
    rw [declaration, hid, hspelling]
    simp only [pure_bind]
    rw [hname]
    refine bind_eq_ok.mpr ⟨params, mapM_eq_ok.mpr (hparams.imp ?_), ?_⟩
    · rintro p q ⟨hsame, htype⟩
      rw [htype, ← hsame]
    · rw [hresult]
      rfl

theorem wellTyped_of_declaration {e : RawEntry} {format : IdFormat} {category : Category}
    {d : Declaration} (h : e.declaration format category = .ok d) : d.WellTyped := by
  obtain ⟨_, _, _, params, _, -, -, -, hparams, -, rfl⟩ := RawEntry.declaration_eq_ok.mp h
  intro q hq
  obtain ⟨raw, -, -, htype⟩ := exists_mem_of_forall₂ hparams hq
  exact TypeExpr.wellFormed_of_parseChars htype

theorem ofJsonText_eq_ok {config : SchemaConfig} {text : String} {s : Schema}
    (h : ofJsonText config text = .ok s) : ∃ raw : RawSchema,
      List.Forall₂ (fun e d => RawEntry.declaration e config.idFormat .constructor = .ok d)
        raw.constructors s.constructors ∧
      List.Forall₂ (fun e d => RawEntry.declaration e config.idFormat .method = .ok d)
        raw.methods s.methods := by
  unfold ofJsonText at h
  cases hraw : (Json.parse? text).bind RawSchema.ofJson? with
  | none =>
      rw [hraw] at h
      cases h
  | some raw =>
      rw [hraw] at h
      simp only [pure_bind] at h
      obtain ⟨constructors, hconstructors, h⟩ := bind_eq_ok.mp h
      obtain ⟨methods, hmethods, h⟩ := bind_eq_ok.mp h
      cases h
      exact ⟨raw, mapM_eq_ok.mp hconstructors, mapM_eq_ok.mp hmethods⟩

theorem wellTyped_of_ofJsonText {config : SchemaConfig} {text : String} {s : Schema}
    (h : ofJsonText config text = .ok s) {d : Declaration} (hd : d ∈ s.declarations) :
    d.WellTyped := by
  obtain ⟨raw, hconstructors, hmethods⟩ := ofJsonText_eq_ok h
  rcases List.mem_append.mp hd with hd | hd
  · obtain ⟨e, -, he⟩ := exists_mem_of_forall₂ hconstructors hd
    exact wellTyped_of_declaration he
  · obtain ⟨e, -, he⟩ := exists_mem_of_forall₂ hmethods hd
    exact wellTyped_of_declaration he

def IsRead (s : Schema) : Prop :=
  (∃ config source, ofSource config source = .ok s) ∨
    ∃ config text, ofJsonText config text = .ok s

theorem IsRead.wellTyped {s : Schema} (h : s.IsRead) {d : Declaration}
    (hd : d ∈ s.declarations) : d.WellTyped := by
  rcases h with ⟨config, source, h⟩ | ⟨config, text, h⟩
  · exact wellTyped_of_ofSource h hd
  · exact wellTyped_of_ofJsonText h hd

/-- Every declaration stands in the list of its category. -/
structure Filed (s : Schema) : Prop where
  constructors : ∀ d ∈ s.constructors, d.category = .constructor
  methods : ∀ d ∈ s.methods, d.category = .method

instance (s : Schema) : Decidable s.Filed :=
  decidable_of_iff
    ((∀ d ∈ s.constructors, d.category = .constructor) ∧ ∀ d ∈ s.methods, d.category = .method)
    ⟨fun h => ⟨h.1, h.2⟩, fun h => ⟨h.1, h.2⟩⟩

theorem filed_ofDeclarations (config : SchemaConfig) (layer : Option UInt32)
    (ds : List Declaration) : (ofDeclarations config layer ds).Filed where
  constructors _ hd := of_decide_eq_true (List.mem_filter.mp hd).2
  methods _ hd := of_decide_eq_true (List.mem_filter.mp hd).2

theorem category_of_declaration {e : RawEntry} {format : IdFormat} {category : Category}
    {d : Declaration} (h : e.declaration format category = .ok d) : d.category = category := by
  obtain ⟨_, _, _, _, _, -, -, -, -, -, rfl⟩ := RawEntry.declaration_eq_ok.mp h
  rfl

theorem filed_of_ofJsonText {config : SchemaConfig} {text : String} {s : Schema}
    (h : ofJsonText config text = .ok s) : s.Filed := by
  obtain ⟨raw, hconstructors, hmethods⟩ := ofJsonText_eq_ok h
  constructor
  · intro d hd
    obtain ⟨e, -, he⟩ := exists_mem_of_forall₂ hconstructors hd
    exact category_of_declaration he
  · intro d hd
    obtain ⟨e, -, he⟩ := exists_mem_of_forall₂ hmethods hd
    exact category_of_declaration he

theorem IsRead.filed {s : Schema} (h : s.IsRead) : s.Filed := by
  rcases h with ⟨config, source, h⟩ | ⟨config, text, h⟩
  · unfold ofSource at h
    obtain ⟨ds, -, h⟩ := bind_eq_ok.mp h
    cases h
    exact filed_ofDeclarations _ _ ds
  · exact filed_of_ofJsonText h

/-! ## An example -/

def peopleText : String :=
  "[null,[[\"1\",\"place\",[[\"x\",\"int\"],[\"y\",\"int\"]],\"Place\"],[\"2\",\"person\",
[[\"flags\",\"#\"],[\"home\",\"place\"],[\"name\",\"flags.0?string\"],[\"away\",\"flags.1?true\"]],\"Person\"]]]"

private theorem parse_name : TypeExpr.parse .constructor [] "flags.0?string" =
    .ok (.flag ⟨"flags", 0⟩ (.primitive .string)) := by
  cbv

private theorem parse_away : TypeExpr.parse .constructor [] "flags.1?true" =
    .ok (.flag ⟨"flags", 1⟩ (.primitive .trueLiteral)) := by
  cbv

private theorem parse_people : (Json.parse? peopleText).bind RawSchema.ofJson? =
    some ⟨none, [⟨.text "1", some "place", [⟨"x", "int"⟩, ⟨"y", "int"⟩], "Place"⟩,
      ⟨.text "2", some "person", [⟨"flags", "#"⟩, ⟨"home", "place"⟩, ⟨"name", "flags.0?string"⟩,
        ⟨"away", "flags.1?true"⟩], "Person"⟩], []⟩ := by
  cbv

theorem isRead_people : Schema.people.IsRead := by
  have hint : TypeExpr.parse .constructor [] "int" = .ok (.primitive .int) := by
    rw [TypeExpr.parse, TypeExpr.parseChars]
    rfl
  have hword : TypeExpr.parse .constructor [] "#" = .ok (.primitive .flags) := by
    rw [TypeExpr.parse, TypeExpr.parseChars]
    rfl
  have hhome : TypeExpr.parse .constructor [] "place" = .ok (.named ⟨[], "place"⟩ true) := by
    rw [TypeExpr.parse, TypeExpr.parseChars]
    rfl
  have hplace : TypeExpr.parse .constructor [] "Place" = .ok (.named ⟨[], "Place"⟩ false) := by
    unfold TypeExpr.parse TypeExpr.parseChars
    rfl
  have hperson : TypeExpr.parse .constructor [] "Person" = .ok (.named ⟨[], "Person"⟩ false) := by
    unfold TypeExpr.parse TypeExpr.parseChars
    rfl
  refine .inr ⟨{}, peopleText, ?_⟩
  rw [ofJsonText, parse_people]
  simp only [pure_bind]
  refine bind_eq_ok.mpr ⟨_, mapM_eq_ok.mpr (.cons ?_ (.cons ?_ .nil)), rfl⟩
  · refine RawEntry.declaration_eq_ok.mpr ⟨1, "place", ⟨[], "place"⟩, _, _, by decide, rfl, rfl,
      ?_, hplace, rfl⟩
    exact .cons ⟨rfl, hint⟩ (.cons ⟨rfl, hint⟩ .nil)
  · refine RawEntry.declaration_eq_ok.mpr ⟨2, "person", ⟨[], "person"⟩, _, _, by decide, rfl, rfl,
      ?_, hperson, rfl⟩
    exact .cons ⟨rfl, hword⟩ (.cons ⟨rfl, hhome⟩ (.cons ⟨rfl, parse_name⟩
      (.cons ⟨rfl, parse_away⟩ .nil)))

end Schema

end TypeLang
