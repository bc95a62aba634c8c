import TypeLang.Proofs.Plan.Presence

/-!
# Layouts are exact

A layout is there if and only if every gated parameter has its flags word in front of it, and then
it is determined by the parameters: their fields one by one, the bytes that every value takes, a
probe for each parameter whose bytes depend on the value, and the bits of each flags word.
-/

namespace TypeLang

/-! ## What the parameters say -/

namespace Parameter

/-- The bytes of a parameter that is always there and takes the same number of bytes in every value.
A flags word is not counted here. -/
def plainWidth? (q : Parameter) : Option Nat :=
  match q.type with
  | .primitive .flags => none
  | .primitive .trueLiteral => none
  | .primitive kind => kind.fixedSize?
  | _ => none

structure Varies (q : Parameter) : Prop where
  word : q.type.erased ≠ .primitive .flags
  bit : q.type.erased ≠ .primitive .trueLiteral
  plain : q.plainWidth? = none

def bitOf? (word : String) (q : Parameter) : Option PresenceBit :=
  match q.type.flag? with
  | some flag => if flag.word = word then some ⟨flag.bit, q.name⟩ else none
  | none => none

/-- A word gates the parameter, and no flags word of that name stands in front of it. -/
structure Lacks (q : Parameter) (front : List Parameter) (word : String) : Prop where
  gate : ∃ bit, q.type.flag? = some ⟨word, bit⟩
  missing : ∀ r ∈ front, r.isWord word = false

end Parameter

inductive ProbeKind.Measures : TypeExpr → ProbeKind → Prop
  | fixed {kind : Primitive} {size : Nat} (bit : kind ≠ .trueLiteral)
      (width : kind.fixedSize? = some size) : Measures (.primitive kind) (.fixed size)
  | bytes : Measures (.primitive .bytes) .bytes
  | string : Measures (.primitive .string) .string
  | json : Measures (.primitive .json) .json
  | object : Measures (.primitive .object) .generic
  | vector (inner : TypeExpr) (boxed : Bool) : Measures (.vector inner boxed) (.vector boxed)
  | named (name : QualifiedName) (bare : Bool) : Measures (.named name bare) (.object bare)
  | var (name : String) : Measures (.var name) .generic
  /-- A flag behind a flag. -/
  | flag (flag : Flag) (inner : TypeExpr) : Measures (.flag flag inner) .generic

inductive FieldKind.Suits : TypeExpr → FieldKind → Prop
  | word (unused : Bool) : Suits (.primitive .flags) (.flagsWord unused)
  | bit : Suits (.primitive .trueLiteral) .trueBit
  | fixed {kind : Primitive} {size : Nat} (word : kind ≠ .flags) (bit : kind ≠ .trueLiteral)
      (width : kind.fixedSize? = some size) : Suits (.primitive kind) (.fixed size)
  | primitive {kind : Primitive} (width : kind.fixedSize? = none) :
      Suits (.primitive kind) .dynamic
  | vector (inner : TypeExpr) (boxed : Bool) : Suits (.vector inner boxed) .dynamic
  | named (name : QualifiedName) (bare : Bool) : Suits (.named name bare) .dynamic
  | var (name : String) : Suits (.var name) .dynamic
  | flag (flag : Flag) (inner : TypeExpr) : Suits (.flag flag inner) .dynamic

structure FieldPlan.Renders (f : FieldPlan) (q : Parameter) : Prop where
  name : f.name = q.name
  type : f.type = q.type
  displayName : f.displayName = Casing.camel q.name
  identifier : f.identifier = Casing.fieldIdentifier q.name
  kind : f.kind.Suits q.type.erased

structure Probe.Counts (probe : Probe) (q : Parameter) : Prop where
  field : probe.field = q.name
  condition : probe.condition = q.type.flag?
  kind : probe.kind.Measures q.type.erased

namespace Layout

def Incomplete (params : List Parameter) : Prop :=
  ∃ front q back word, params = front ++ q :: back ∧ q.Lacks front word

def FirstLacking (params : List Parameter) (word : String) : Prop :=
  ∃ front q back, params = front ++ q :: back ∧ q.Lacks front word ∧ ¬Incomplete front

structure Describes (l : Layout) (params : List Parameter) : Prop where
  fields : List.Forall₂ FieldPlan.Renders l.fields params
  base : l.size.base =
    4 + (params.filterMap Parameter.plainWidth?).sum + 4 * params.countP Parameter.declaresWord
  ordered : l.size.probes.Pairwise (·.index < ·.index)
  probes : ∀ probe, probe ∈ l.size.probes ↔
    ∃ q, params[probe.index]? = some q ∧ q.Varies ∧ probe.Counts q
  probed : ∀ (index : Nat) (q : Parameter), params[index]? = some q → q.Varies →
    ∃ probe ∈ l.size.probes, probe.index = index
  constant : (∃ size, l.size = .constant size) ↔ l.size.probes = []
  flags : ∀ q ∈ params, ∀ flag, q.type.flag? = some flag → flag.bit.val < 32
  bits : ∀ entry ∈ l.presence, ∀ b ∈ entry.2, b.bit.val < 32
  presence : (params.map (·.name)).Nodup →
    l.presence = (params.filter Parameter.declaresWord).map
      fun w => (w.name, params.filterMap (·.bitOf? w.name))
  unused : (params.map (·.name)).Nodup → ∀ f ∈ l.fields, ∀ unused, f.kind = .flagsWord unused →
    (unused ↔ params.filterMap (·.bitOf? f.name) = [])

variable {params : List Parameter} {presence : List (String × List PresenceBit)} {q : Parameter}
  {index : Nat} {probe : Probe}

/-! ## Missing flags words -/

section Missing

variable {declared : List String} {word : String}

theorem exists_of_missingWord?_eq_some (h : missingWord? declared params = some word) :
    ∃ front q back, params = front ++ q :: back ∧ q.Lacks front word ∧ word ∉ declared ∧
      missingWord? declared front = none := by
  induction params generalizing declared with
  | nil => cases h
  | cons r params ih =>
      by_cases hgate : ∀ flag, r.type.flag? = some flag → flag.word ∈ declared
      · rw [missingWord?_cons_of_mem hgate] at h
        obtain ⟨front, q, back, rfl, hlacks, hword, hfront⟩ := ih h
        rw [mem_declared_iff, not_or] at hword
        refine ⟨r :: front, q, back, rfl, ⟨hlacks.gate, ?_⟩, hword.2, ?_⟩
        · intro s hs
          rcases List.mem_cons.mp hs with rfl | hs
          · exact Bool.eq_false_iff.mpr hword.1
          · exact hlacks.missing s hs
        · rw [missingWord?_cons_of_mem hgate]
          exact hfront
      · push Not at hgate
        obtain ⟨flag, hflag, hword⟩ := hgate
        rw [missingWord?_cons_of_notMem hflag hword] at h
        obtain rfl := Option.some.inj h
        exact ⟨[], r, params, rfl, ⟨⟨flag.bit, hflag⟩, by simp⟩, hword, rfl⟩

/-- No word is missing if and only if every gated parameter has its word in front of it. -/
theorem missingWord?_eq_none_iff : missingWord? [] params = none ↔ ¬Incomplete params := by
  constructor
  · rintro hnone ⟨front, q, back, word, rfl, ⟨bit, hflag⟩, hmissing⟩
    rcases missingWord?_eq_none hnone hflag with hdeclared | ⟨r, hr, hword⟩
    · cases hdeclared
    · exact absurd hword (by simp [hmissing r hr])
  · intro hcomplete
    by_contra hsome
    obtain ⟨word, hword⟩ := Option.ne_none_iff_exists'.mp hsome
    obtain ⟨front, q, back, hsplit, hlacks, -, -⟩ := exists_of_missingWord?_eq_some hword
    exact hcomplete ⟨front, q, back, word, hsplit, hlacks⟩

theorem firstLacking_of_missingWord? (h : missingWord? [] params = some word) :
    FirstLacking params word := by
  obtain ⟨front, q, back, hsplit, hlacks, -, hfront⟩ := exists_of_missingWord?_eq_some h
  exact ⟨front, q, back, hsplit, hlacks, missingWord?_eq_none_iff.mp hfront⟩

end Missing

/-! ## Fields and probes -/

theorem suits_fieldKind (presence : List (String × List PresenceBit)) (q : Parameter) :
    (fieldKind presence q).Suits q.type.erased := by
  unfold fieldKind
  cases q.type.erased with
  | primitive kind =>
      cases kind with
      | flags => exact .word _
      | trueLiteral => exact .bit
      | bytes | string | object | json => exact .primitive rfl
      | int | long | double | bool | int128 | int256 => exact .fixed (by decide) (by decide) rfl
  | vector inner boxed => exact .vector inner boxed
  | flag flag inner => exact .flag flag inner
  | var name => exact .var name
  | named name bare => exact .named name bare

theorem renders_fieldPlan (presence : List (String × List PresenceBit)) (q : Parameter) :
    (fieldPlan presence q).Renders q where
  name := rfl
  type := rfl
  displayName := rfl
  identifier := rfl
  kind := suits_fieldKind presence q

theorem fixedSize?_primitive {kind : Primitive} (h : kind ≠ .trueLiteral) :
    fixedSize? (.primitive kind) = kind.fixedSize? := by
  cases kind with
  | trueLiteral => exact absurd rfl h
  | _ => rfl

theorem measures_iff {type : TypeExpr} (hbit : type ≠ .primitive .trueLiteral)
    {kind : ProbeKind} :
    kind.Measures type ↔
      kind = match fixedSize? type with
        | none => probeKind type
        | some size => .fixed size := by
  constructor
  · intro h
    cases h with
    | fixed hkind hwidth => rw [fixedSize?_primitive hkind, hwidth]
    | _ => rfl
  · rintro rfl
    cases type with
    | primitive kind =>
        cases kind with
        | trueLiteral => exact absurd rfl hbit
        | bytes => exact .bytes
        | string => exact .string
        | json => exact .json
        | object => exact .object
        | int | long | double | bool | int128 | int256 | flags => exact .fixed (by decide) rfl
    | vector inner boxed => exact .vector inner boxed
    | flag flag inner => exact .flag flag inner
    | var name => exact .var name
    | named name bare => exact .named name bare

theorem probe?_eq_none (h : q.type.erased = .primitive .flags ∨
    q.type.erased = .primitive .trueLiteral) : probe? q index = none := by
  rcases h with h | h <;> simp only [probe?, h, Option.map_none]

theorem probe?_of_value (hword : q.type.erased ≠ .primitive .flags)
    (hbit : q.type.erased ≠ .primitive .trueLiteral) :
    probe? q index =
      match fixedSize? q.type.erased with
      | none => some ⟨index, q.name, probeKind q.type.erased, q.type.flag?⟩
      | some size => q.type.flag?.map fun flag => ⟨index, q.name, .fixed size, some flag⟩ := by
  unfold probe?
  split
  · rename_i h
    exact absurd h hword
  · rename_i h
    exact absurd h hbit
  · cases fixedSize? q.type.erased with
    | none => rfl
    | some size =>
        simp only
        cases q.type.flag? <;> rfl

theorem plainWidth?_of_word (hword : q.type.erased = .primitive .flags) :
    q.plainWidth? = none := by
  obtain ⟨name, type⟩ := q
  cases type with
  | primitive kind =>
      obtain rfl := TypeExpr.primitive.inj hword
      rfl
  | _ => rfl

theorem plainWidth?_of_value (hword : q.type.erased ≠ .primitive .flags) :
    q.plainWidth? = match q.type.flag? with
      | none => fixedSize? q.type.erased
      | some _ => none := by
  obtain ⟨name, type⟩ := q
  cases type with
  | primitive kind =>
      cases kind with
      | flags => exact absurd rfl hword
      | _ => rfl
  | _ => rfl

theorem probe?_eq_some_iff :
    probe? q index = some probe ↔ probe.index = index ∧ q.Varies ∧ probe.Counts q := by
  by_cases hword : q.type.erased = .primitive .flags
  · rw [probe?_eq_none (.inl hword)]
    exact ⟨fun h => (Option.some_ne_none _ h.symm).elim, fun h => absurd hword h.2.1.word⟩
  by_cases hbit : q.type.erased = .primitive .trueLiteral
  · rw [probe?_eq_none (.inr hbit)]
    exact ⟨fun h => (Option.some_ne_none _ h.symm).elim, fun h => absurd hbit h.2.1.bit⟩
  have hvaries : q.Varies ↔ q.plainWidth? = none := ⟨(·.plain), fun h => ⟨hword, hbit, h⟩⟩
  have hcounts : probe.Counts q ↔ probe.field = q.name ∧ probe.kind.Measures q.type.erased ∧
      probe.condition = q.type.flag? :=
    ⟨fun h => ⟨h.field, h.kind, h.condition⟩, fun h => ⟨h.1, h.2.2, h.2.1⟩⟩
  obtain ⟨place, field, kind, condition⟩ := probe
  rw [hvaries, hcounts, measures_iff hbit, plainWidth?_of_value hword, probe?_of_value hword hbit]
  cases fixedSize? q.type.erased <;> cases q.type.flag? <;> simp [eq_comm]

theorem mem_probes_iff :
    probe ∈ (params.zipIdx.filterMap fun q => probe? q.1 q.2) ↔
      ∃ q, params[probe.index]? = some q ∧ q.Varies ∧ probe.Counts q := by
  rw [List.mem_filterMap]
  constructor
  · rintro ⟨⟨q, index⟩, hmem, hprobe⟩
    obtain ⟨rfl, hvaries, hcounts⟩ := probe?_eq_some_iff.mp hprobe
    exact ⟨q, List.mk_mem_zipIdx_iff_getElem?.mp hmem, hvaries, hcounts⟩
  · rintro ⟨q, hq, hvaries, hcounts⟩
    have hmem : (q, probe.index) ∈ params.zipIdx := List.mk_mem_zipIdx_iff_getElem?.mpr hq
    exact ⟨_, hmem, probe?_eq_some_iff.mpr ⟨rfl, hvaries, hcounts⟩⟩

theorem exists_counts (hvaries : q.Varies) (index : Nat) :
    ∃ probe : Probe, probe.index = index ∧ probe.Counts q := by
  obtain ⟨kind, hkind⟩ : ∃ kind : ProbeKind, kind.Measures q.type.erased :=
    ⟨_, (measures_iff hvaries.bit).mpr rfl⟩
  exact ⟨⟨index, q.name, kind, q.type.flag?⟩, rfl, ⟨rfl, rfl, hkind⟩⟩

theorem pairwise_probes (params : List Parameter) :
    (params.zipIdx.filterMap fun q => probe? q.1 q.2).Pairwise (·.index < ·.index) := by
  have hindices : params.zipIdx.Pairwise (·.2 < ·.2) := by
    apply List.pairwise_map.mp
    rw [List.zipIdx_map_snd]
    exact List.pairwise_lt_range'
  apply hindices.filterMap
  intro a b hlt first hfirst second hsecond
  rw [(probe?_eq_some_iff.mp hfirst).1, (probe?_eq_some_iff.mp hsecond).1]
  exact hlt

/-! ## The bytes that every value takes -/

theorem width_eq (q : Parameter) :
    width q = q.plainWidth?.getD 0 + if q.declaresWord then 4 else 0 := by
  by_cases hword : q.type.erased = .primitive .flags
  · have hdeclares : q.declaresWord := by simp [Parameter.declaresWord, TypeExpr.isFlagsWord, hword]
    have hplain : q.plainWidth? = none := plainWidth?_of_word hword
    simp [width, hdeclares, hplain, hword, fixedSize?, Primitive.fixedSize?]
  · have hdeclares : q.declaresWord = false := by
      simp [Parameter.declaresWord, TypeExpr.isFlagsWord, hword]
    rw [width, hdeclares, plainWidth?_of_value hword]
    cases q.type.flag? <;> simp

theorem sum_width (params : List Parameter) :
    (params.map width).sum =
      (params.filterMap Parameter.plainWidth?).sum + 4 * params.countP Parameter.declaresWord := by
  induction params with
  | nil => rfl
  | cons q params ih =>
      have hplain : ((q :: params).filterMap Parameter.plainWidth?).sum =
          q.plainWidth?.getD 0 + (params.filterMap Parameter.plainWidth?).sum := by
        rw [List.filterMap_cons]
        cases q.plainWidth? <;> simp
      rw [List.map_cons, List.sum_cons, ih, width_eq, hplain, List.countP_cons]
      split <;> omega

/-! ## The bits of the flags words -/

theorem bitOf?_eq_some_iff {word : String} {b : PresenceBit} :
    q.bitOf? word = some b ↔ q.type.flag? = some ⟨word, b.bit⟩ ∧ q.name = b.field := by
  obtain ⟨bit, field⟩ := b
  unfold Parameter.bitOf?
  cases q.type.flag? with
  | none => simp
  | some flag =>
      obtain ⟨gate, gateBit⟩ := flag
      by_cases hgate : gate = word
      · simp [hgate]
      · simp [hgate]

theorem addPresence_eq (presence : List (String × List PresenceBit)) (q : Parameter) :
    addPresence presence q =
      let gated := presence.map fun (word, bits) => (word, bits ++ (q.bitOf? word).toList)
      if q.declaresWord then declareWord gated q.name else gated := by
  have hgated : (match q.type.flag? with
      | some flag => addBit presence flag q.name
      | none => presence) =
      presence.map fun (word, bits) => (word, bits ++ (q.bitOf? word).toList) := by
    unfold Parameter.bitOf?
    cases q.type.flag? with
    | none => simp
    | some flag =>
        refine List.map_congr_left fun (word, bits) _ => ?_
        by_cases hword : word = flag.word
        · simp [hword]
        · simp [hword, Ne.symm hword]
  exact congrArg (fun gated => if q.declaresWord then declareWord gated q.name else gated) hgated

theorem declareWord_of_notMem {word : String} (h : word ∉ presence.map (·.1)) :
    declareWord presence word = presence ++ [(word, [])] := by
  have hnot : presence.any (·.1 == word) = false := by
    rw [Association.any_key_eq_isSome, Association.lookup_eq_none_iff_notMem.mpr h]
    rfl
  rw [declareWord, hnot]
  rfl

theorem not_incomplete_of_append {rest : List Parameter} (h : ¬Incomplete (params ++ rest)) :
    ¬Incomplete params := by
  rintro ⟨front, q, back, word, rfl, hlacks⟩
  exact h ⟨front, q, back ++ rest, word, by simp, hlacks⟩

theorem exists_word_of_gated (h : ¬Incomplete (params ++ [q])) {r : Parameter}
    (hr : r ∈ params ++ [q]) {flag : Flag} (hflag : r.type.flag? = some flag) :
    ∃ w ∈ params, w.isWord flag.word := by
  obtain ⟨front, back, hsplit⟩ := List.append_of_mem hr
  by_contra hnone
  push Not at hnone
  have hplace : front <+: params ++ [q] := ⟨r :: back, hsplit.symm⟩
  have hfront : front <+: params := by
    rcases List.prefix_concat_iff.mp hplace with hwhole | hfront
    · rw [hwhole] at hsplit
      simp at hsplit
    · exact hfront
  refine h ⟨front, r, back, flag.word, hsplit, ⟨flag.bit, hflag⟩, ?_⟩
  intro w hw
  exact Bool.eq_false_iff.mpr (hnone w (hfront.subset hw))

/-- If no name is repeated, the table has the words in order, each with its bits in order. -/
theorem presenceOf_eq (hnames : (params.map (·.name)).Nodup) (hcomplete : ¬Incomplete params) :
    presenceOf params = (params.filter Parameter.declaresWord).map
      fun w => (w.name, params.filterMap (·.bitOf? w.name)) := by
  induction params using List.reverseRecOn with
  | nil => rfl
  | append_singleton params q ih =>
      rw [List.map_append, List.map_singleton] at hnames
      have hold : (params.map (·.name)).Nodup := hnames.of_append_left
      have hnew : q.name ∉ params.map (·.name) := by
        simpa using (List.nodup_append.mp hnames).2.2
      have hgated : ((presenceOf params).map fun (word, bits) =>
          (word, bits ++ (q.bitOf? word).toList)) =
          (params.filter Parameter.declaresWord).map
            fun w => (w.name, (params ++ [q]).filterMap (·.bitOf? w.name)) := by
        rw [ih hold (not_incomplete_of_append hcomplete), List.map_map]
        refine List.map_congr_left fun w _ => ?_
        have hlast : [q].filterMap (·.bitOf? w.name) = (q.bitOf? w.name).toList := by
          rw [List.filterMap_cons, List.filterMap_nil]
          cases q.bitOf? w.name <;> rfl
        rw [List.filterMap_append, hlast]
        rfl
      -- A word that is new here gates nothing yet.
      have hfresh : (params ++ [q]).filterMap (·.bitOf? q.name) = [] := by
        rw [List.filterMap_eq_nil_iff]
        intro r hr
        by_contra hbit
        obtain ⟨b, hb⟩ := Option.ne_none_iff_exists'.mp hbit
        obtain ⟨w, hw, hword⟩ :=
          exists_word_of_gated hcomplete hr (bitOf?_eq_some_iff.mp hb).1
        have hname : w.name = q.name := by
          rw [Parameter.isWord, Bool.and_eq_true, beq_iff_eq] at hword
          exact hword.2
        exact hnew (hname ▸ List.mem_map_of_mem hw)
      rw [presenceOf_concat, addPresence_eq, hgated, List.filter_append]
      by_cases hword : q.declaresWord
      · have hkeys : q.name ∉ ((params.filter Parameter.declaresWord).map
            fun w => (w.name, (params ++ [q]).filterMap (·.bitOf? w.name))).map (·.1) := by
          rw [List.map_map]
          intro hmem
          obtain ⟨w, hw, hname⟩ := List.mem_map.mp hmem
          exact hnew (List.mem_map.mpr ⟨w, List.mem_of_mem_filter hw, hname⟩)
        simp only [if_pos hword]
        rw [declareWord_of_notMem hkeys, List.map_append, List.filter_cons_of_pos hword,
          List.filter_nil, List.map_singleton, hfresh]
      · simp only [if_neg hword]
        rw [List.filter_cons_of_neg hword, List.filter_nil, List.append_nil]

theorem lookup_presenceOf (hnames : (params.map (·.name)).Nodup) (hcomplete : ¬Incomplete params)
    (hq : q ∈ params) (hword : q.declaresWord) :
    (presenceOf params).lookup q.name = some (params.filterMap (·.bitOf? q.name)) := by
  have hkeys : ((presenceOf params).map (·.1)).Nodup := by
    rw [presenceOf_eq hnames hcomplete, List.map_map]
    exact hnames.sublist (List.filter_sublist.map _)
  rw [Association.lookup_eq_some_iff_mem hkeys, presenceOf_eq hnames hcomplete]
  exact List.mem_map.mpr ⟨q, List.mem_filter.mpr ⟨hq, hword⟩, rfl⟩

theorem unused_iff (hnames : (params.map (·.name)).Nodup) (hcomplete : ¬Incomplete params)
    (hq : q ∈ params) {unused : Bool}
    (hkind : fieldKind (presenceOf params) q = .flagsWord unused) :
    unused ↔ params.filterMap (·.bitOf? q.name) = [] := by
  have hword : q.type.erased = .primitive .flags := by
    have hsuits := suits_fieldKind (presenceOf params) q
    rw [hkind] at hsuits
    generalize q.type.erased = type at hsuits
    cases hsuits
    rfl
  have hdeclares : q.declaresWord := by
    simp [Parameter.declaresWord, TypeExpr.isFlagsWord, hword]
  simp only [fieldKind, hword, lookup_presenceOf hnames hcomplete hq hdeclares,
    Option.getD_some, FieldKind.flagsWord.injEq] at hkind
  rw [← hkind, List.isEmpty_iff]

/-! ## The layout of a declaration -/

variable {d : Declaration} {l : Layout}

theorem ofDeclaration_eq_error {e : PlanError} (h : ofDeclaration d = .error e) :
    ∃ word, e = .missingFlagsWord d.fullName word ∧ FirstLacking d.params word := by
  rw [ofDeclaration_eq] at h
  split at h
  · rename_i word hmissing
    cases h
    exact ⟨word, rfl, firstLacking_of_missingWord? hmissing⟩
  · cases h

theorem ofDeclaration_fails_iff : (∃ e, ofDeclaration d = .error e) ↔ Incomplete d.params := by
  rw [← not_iff_not, ← missingWord?_eq_none_iff]
  rw [ofDeclaration_eq]
  split
  · rename_i hmissing
    simp [hmissing]
  · rename_i hmissing
    simp [hmissing]

theorem constant_iff (h : ofDeclaration d = .ok l) :
    (∃ size, l.size = .constant size) ↔ l.size.probes = [] := by
  constructor
  · rintro ⟨size, hsize⟩
    rw [hsize]
    rfl
  · intro hprobes
    rw [ofDeclaration_eq] at h
    split at h
    · cases h
    · cases h
      dsimp only at hprobes ⊢
      split
      · exact ⟨_, rfl⟩
      · rename_i hempty
        rw [if_neg hempty] at hprobes
        exact absurd (List.isEmpty_iff.mpr hprobes) hempty

theorem describes_of_ofDeclaration (h : ofDeclaration d = .ok l) : l.Describes d.params := by
  obtain ⟨hmissing, hpresence, hfields, hbase, hprobes⟩ := ofDeclaration_eq_ok h
  have hcomplete := missingWord?_eq_none_iff.mp hmissing
  constructor
  case fields =>
      rw [hfields, List.forall₂_map_left_iff, List.forall₂_same]
      exact fun q _ => renders_fieldPlan (presenceOf d.params) q
  case base => rw [hbase, sum_width, idSize, Nat.add_assoc]
  case ordered =>
      rw [hprobes]
      exact pairwise_probes d.params
  case probes =>
      intro probe
      rw [hprobes]
      exact mem_probes_iff
  case probed =>
      intro index q hq hvaries
      obtain ⟨probe, rfl, hcounts⟩ := exists_counts hvaries index
      rw [hprobes]
      exact ⟨probe, mem_probes_iff.mpr ⟨q, hq, hvaries, hcounts⟩, rfl⟩
  case constant => exact constant_iff h
  case flags => exact fun _ _ flag _ => flag.bit.isLt
  case bits => exact fun _ _ b _ => b.bit.isLt
  case presence =>
      intro hnames
      rw [hpresence]
      exact presenceOf_eq hnames hcomplete
  case unused =>
      intro hnames f hf unused hkind
      rw [hfields] at hf
      obtain ⟨q, hq, rfl⟩ := List.mem_map.mp hf
      exact unused_iff hnames hcomplete hq hkind

/-- A declaration has no layout if and only if one of its parameters is gated by a word that is not
declared in front of it; the error names the word of the first such parameter. Otherwise its layout
says of the parameters what there is to say. -/
theorem ofDeclaration_exact (d : Declaration) :
    ((∃ e, ofDeclaration d = .error e) ↔ Incomplete d.params) ∧
      (∀ e, ofDeclaration d = .error e →
        ∃ word, e = .missingFlagsWord d.fullName word ∧ FirstLacking d.params word) ∧
      ∀ l, ofDeclaration d = .ok l → l.Describes d.params :=
  ⟨ofDeclaration_fails_iff, fun _ => ofDeclaration_eq_error, fun _ => describes_of_ofDeclaration⟩

end Layout

def Declaration.account : Declaration where
  category := .constructor
  id := 1
  name := ⟨[], "account"⟩
  params :=
    [⟨"flags", .primitive .flags⟩, ⟨"id", .primitive .long⟩,
      ⟨"name", .flag ⟨"flags", ⟨0, by decide⟩⟩ (.primitive .string)⟩,
      ⟨"admin", .flag ⟨"flags", ⟨3, by decide⟩⟩ (.primitive .trueLiteral)⟩,
      ⟨"tags", .vector (.primitive .string) true⟩, ⟨"spare", .primitive .flags⟩]
  result := .named ⟨[], "Account"⟩ false

namespace Layout

/-- The layout of an account, and the error if its first word is taken away. -/
theorem ofDeclaration_exact_account :
    (∃ l, ofDeclaration .account = .ok l ∧ l.Describes Declaration.account.params ∧
      (Declaration.account.params.map (·.name)).Nodup ∧ l.size.base = 20 ∧
      l.presence = [("flags", [⟨0, "name"⟩, ⟨3, "admin"⟩]), ("spare", [])]) ∧
      FirstLacking Declaration.account.params.tail "flags" := by
  constructor
  · have hnames : (Declaration.account.params.map (·.name)).Nodup := by decide
    have hdescribes := (ofDeclaration_exact .account).2.2 _ rfl
    exact ⟨_, rfl, hdescribes, hnames, hdescribes.base, hdescribes.presence hnames⟩
  · let wordless : Declaration :=
      { Declaration.account with params := Declaration.account.params.tail }
    obtain ⟨word, herror, hfirst⟩ := (ofDeclaration_exact wordless).2.1 _ rfl
    cases herror
    exact hfirst

end Layout

end TypeLang
