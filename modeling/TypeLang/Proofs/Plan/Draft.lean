import Mathlib
import TypeLang.Plan.Layout
import TypeLang.Proofs.Association

/-!
# Layouts are put together parameter by parameter

A layout is drafted in one pass over the parameters, which puts down bits, fields, probes and the
bytes of every value together and stops at a missing flags word; a second pass over the fields tells
which words are used. Here each of these is said of the parameters on its own. What one parameter
adds to each is `add_of_word`, and where the pass stops or that it does not is `foldlM_add`; from
these the layout is the one of `ofDeclaration_eq`.
-/

namespace TypeLang

namespace Parameter

def isWord (word : String) (q : Parameter) : Bool :=
  q.declaresWord && q.name == word

end Parameter

namespace Layout

/-! ## What a layout says of the parameters -/

/-- The first gated parameter whose flags word is not among `declared` or an earlier parameter gives
the word that is missing. -/
def missingWord? (declared : List String) : List Parameter → Option String
  | [] => none
  | p :: rest =>
    let next := if p.declaresWord then p.name :: declared else declared
    match p.type.flag? with
    | some flag => if declared.contains flag.word then missingWord? next rest else some flag.word
    | none => missingWord? next rest

def addPresence (presence : List (String × List PresenceBit)) (p : Parameter) :
    List (String × List PresenceBit) :=
  let gated := match p.type.flag? with
    | some flag => addBit presence flag p.name
    | none => presence
  if p.declaresWord then declareWord gated p.name else gated

def presenceOf (params : List Parameter) : List (String × List PresenceBit) :=
  params.foldl addPresence []

def width (p : Parameter) : Nat :=
  if p.declaresWord || p.type.flag?.isNone then (fixedSize? p.type.erased).getD 0 else 0

/-- The probe of a parameter, unless it takes the same number of bytes in every value. -/
def probe? (p : Parameter) (index : Nat) : Option Probe :=
  let kind? := match p.type.erased with
    | .primitive .flags => none
    | .primitive .trueLiteral => none
    | t =>
      match fixedSize? t with
      | none => some (probeKind t)
      | some size => p.type.flag?.map fun _ => .fixed size
  kind?.map fun kind => ⟨index, p.name, kind, p.type.flag?⟩

def fieldKind (presence : List (String × List PresenceBit)) (p : Parameter) : FieldKind :=
  match p.type.erased with
  | .primitive .flags => .flagsWord ((presence.lookup p.name).getD []).isEmpty
  | .primitive .trueLiteral => .trueBit
  | t =>
    match fixedSize? t with
    | some size => .fixed size
    | none => .dynamic

def fieldPlan (presence : List (String × List PresenceBit)) (p : Parameter) : FieldPlan :=
  ⟨p.name, Casing.camel p.name, Casing.fieldIdentifier p.name, p.type, fieldKind presence p⟩

/-! ## The table of presence bits -/

theorem lookup_addBit (presence : List (String × List PresenceBit)) (flag : Flag)
    (field word : String) :
    (addBit presence flag field).lookup word =
      if word == flag.word then (presence.lookup word).map (· ++ [⟨flag.bit, field⟩])
      else presence.lookup word := by
  exact Association.lookup_map_at (· ++ [⟨flag.bit, field⟩] : List PresenceBit → _)
    presence flag.word word

theorem lookup_declareWord (presence : List (String × List PresenceBit)) (name word : String) :
    (declareWord presence name).lookup word =
      if word == name then some [] else presence.lookup word := by
  unfold declareWord
  split
  · rename_i hdeclared
    rw [Association.any_key_eq_isSome] at hdeclared
    rw [Association.lookup_map_at (fun _ => []) presence name word]
    by_cases hword : word = name
    · obtain ⟨bits, hbits⟩ := Option.isSome_iff_exists.mp hdeclared
      rw [hword, hbits, if_pos BEq.rfl, if_pos BEq.rfl, Option.map_some]
    · simp [hword]
  · rename_i hdeclared
    rw [Association.any_key_eq_isSome, Option.isSome_iff_ne_none, not_not] at hdeclared
    rw [List.lookup_append]
    by_cases hword : word = name
    · rw [hword, hdeclared, if_pos BEq.rfl, Option.none_or, List.lookup_cons_self]
    · rw [Association.lookup_cons_of_ne hword]
      simp [hword]

theorem lookup_addPresence (presence : List (String × List PresenceBit)) (q : Parameter)
    (word : String) :
    (addPresence presence q).lookup word =
      if q.isWord word then some []
      else match q.type.flag? with
        | some flag =>
          if word == flag.word then (presence.lookup word).map (· ++ [⟨flag.bit, q.name⟩])
          else presence.lookup word
        | none => presence.lookup word := by
  have hgated (table : List (String × List PresenceBit)) :
      (if q.declaresWord then declareWord table q.name else table).lookup word =
        if q.isWord word then some [] else table.lookup word := by
    unfold Parameter.isWord
    by_cases hword : q.declaresWord
    · simp only [hword, if_true, Bool.true_and]
      rw [lookup_declareWord, BEq.comm]
    · simp [hword]
  simp only [addPresence]
  rw [hgated]
  cases q.type.flag? with
  | none => rfl
  | some flag => simp only [lookup_addBit]

theorem presenceOf_concat (params : List Parameter) (q : Parameter) :
    presenceOf (params ++ [q]) = addPresence (presenceOf params) q := by
  simp [presenceOf]

theorem isSome_lookup_presenceOf (params : List Parameter) (word : String) :
    ((presenceOf params).lookup word).isSome = params.any (·.isWord word) := by
  induction params using List.reverseRecOn with
  | nil => rfl
  | append_singleton params q ih =>
      rw [presenceOf_concat, lookup_addPresence, List.any_append, ← ih]
      by_cases hword : q.isWord word
      · simp [hword]
      · rw [if_neg hword]
        cases q.type.flag? with
        | none => simp [hword]
        | some flag =>
            simp only
            split <;> simp [hword]

/-! ## One parameter -/

def Draft.of (params : List Parameter) : Draft where
  presence := presenceOf params
  fields := params.map (fieldPlan [])
  probes := params.zipIdx.filterMap fun q => probe? q.1 q.2
  base := idSize + (params.map width).sum

theorem Draft.of_concat (params : List Parameter) (q : Parameter) : Draft.of (params ++ [q]) =
    { presence := addPresence (presenceOf params) q
      fields := (Draft.of params).fields ++ [fieldPlan [] q]
      probes := (Draft.of params).probes ++ (probe? q params.length).toList
      base := (Draft.of params).base + width q } := by
  have hprobe : ([(q, params.length)].filterMap fun q => probe? q.1 q.2) =
      (probe? q params.length).toList := by
    rw [List.filterMap_cons, List.filterMap_nil]
    simp only
    cases probe? q params.length <;> rfl
  simp only [Draft.of, presenceOf_concat, List.map_append, List.map_cons, List.map_nil,
    List.zipIdx_append, List.zipIdx_cons, List.zipIdx_nil, List.filterMap_append, Nat.zero_add,
    hprobe, List.sum_append, List.sum_cons, List.sum_nil, Nat.add_zero, Nat.add_assoc]

section

variable {declaration : String} {draft : Draft} {params : List Parameter} {q : Parameter}

/-- What a parameter adds to each part of a draft once its bit is put down. -/
theorem Draft.count_eq (draft : Draft) (q : Parameter) (index : Nat) :
    draft.count q index =
      ({ presence := if q.declaresWord then declareWord draft.presence q.name else draft.presence
         fields := draft.fields
         probes := draft.probes ++ (probe? q index).toList
         base := draft.base + width q }, fieldKind [] q) := by
  by_cases hword : q.type.erased = .primitive .flags
  · have hdeclares : q.declaresWord = true := by
      simp [Parameter.declaresWord, TypeExpr.isFlagsWord, hword]
    simp [count, probe?, width, fieldKind, hword, hdeclares, fixedSize?, Primitive.fixedSize?]
  have hdeclares : q.declaresWord = false := by
    simp [Parameter.declaresWord, TypeExpr.isFlagsWord, hword]
  by_cases hbit : q.type.erased = .primitive .trueLiteral
  · simp [count, probe?, width, fieldKind, hbit, hdeclares, fixedSize?]
  cases hsize : fixedSize? q.type.erased with
  | none => simp [count, probe?, width, fieldKind, hdeclares, hsize]
  | some size =>
      cases hflag : q.type.flag? with
      | none => simp [count, probe?, width, fieldKind, hdeclares, hsize, hflag]
      | some flag => simp [count, probe?, width, fieldKind, hdeclares, hsize, hflag]

/-- A parameter is taken up if its flags word is declared in front of it. -/
theorem Draft.add_of_word
    (h : ∀ flag, q.type.flag? = some flag → params.any (·.isWord flag.word)) :
    Draft.add declaration (.of params) (q, params.length) = .ok (.of (params ++ [q])) := by
  have hgate : (Draft.of params).gate declaration q = .ok
      { Draft.of params with
        presence := match q.type.flag? with
          | some flag => addBit (presenceOf params) flag q.name
          | none => presenceOf params } := by
    rw [gate]
    cases hflag : q.type.flag? with
    | none => rfl
    | some flag =>
        have hdeclared := h flag hflag
        rw [← isSome_lookup_presenceOf, ← Association.any_key_eq_isSome] at hdeclared
        exact if_pos hdeclared
  rw [add, hgate, of_concat]
  simp only [bind, Except.bind, count_eq]
  rfl

theorem Draft.add_of_missing {flag : Flag} (hflag : q.type.flag? = some flag)
    (hmissing : params.any (·.isWord flag.word) = false) (index : Nat) :
    Draft.add declaration (.of params) (q, index) =
      .error (.missingFlagsWord declaration flag.word) := by
  rw [← isSome_lookup_presenceOf, ← Association.any_key_eq_isSome] at hmissing
  have hgate : (Draft.of params).gate declaration q =
      .error (.missingFlagsWord declaration flag.word) := by
    rw [gate, hflag]
    exact if_neg (Bool.eq_false_iff.mp hmissing)
  rw [add, hgate]
  rfl

/-! ## All parameters -/

variable {declared : List String} {word : String}

theorem mem_declared_iff :
    word ∈ (if q.declaresWord then q.name :: declared else declared) ↔
      q.isWord word ∨ word ∈ declared := by
  unfold Parameter.isWord
  by_cases hword : q.declaresWord
  · rw [if_pos hword, List.mem_cons, hword, Bool.true_and, beq_iff_eq, eq_comm]
  · rw [if_neg hword, Bool.eq_false_iff.mpr hword, Bool.false_and]
    simp only [Bool.false_eq_true, false_or]

theorem missingWord?_cons_of_notMem {flag : Flag} (hflag : q.type.flag? = some flag)
    (hword : flag.word ∉ declared) : missingWord? declared (q :: params) = some flag.word := by
  have hcontains : declared.contains flag.word = false := by simpa using hword
  rw [missingWord?, hflag]
  simp only [hcontains, Bool.false_eq_true, if_false]

theorem missingWord?_cons_of_mem (h : ∀ flag, q.type.flag? = some flag → flag.word ∈ declared) :
    missingWord? declared (q :: params) =
      missingWord? (if q.declaresWord then q.name :: declared else declared) params := by
  rw [missingWord?]
  cases hflag : q.type.flag? with
  | none => rfl
  | some flag =>
      have hcontains : declared.contains flag.word = true := by simpa using h flag hflag
      simp only [hcontains, if_true]

/-- From the draft of some parameters the pass goes on through the rest, up to a missing word. -/
theorem Draft.foldlM_add {rest : List Parameter}
    (hdeclared : ∀ word, word ∈ declared ↔ params.any (·.isWord word)) :
    (rest.zipIdx params.length).foldlM (Draft.add declaration) (.of params) =
      match missingWord? declared rest with
      | some word => .error (.missingFlagsWord declaration word)
      | none => .ok (Draft.of (params ++ rest)) := by
  induction rest generalizing params declared with
  | nil =>
      rw [List.append_nil]
      rfl
  | cons q rest ih =>
      rw [List.zipIdx_cons, List.foldlM_cons]
      by_cases hgate : ∀ flag, q.type.flag? = some flag → params.any (·.isWord flag.word)
      · have hnext : ∀ word, word ∈ (if q.declaresWord then q.name :: declared else declared) ↔
            (params ++ [q]).any (·.isWord word) := by
          intro word
          rw [mem_declared_iff, hdeclared, List.any_append, Bool.or_eq_true, or_comm]
          simp
        have hrest := ih hnext
        rw [List.length_append, List.length_singleton, List.append_assoc,
          List.singleton_append] at hrest
        rw [Draft.add_of_word hgate, missingWord?_cons_of_mem fun flag hflag =>
          (hdeclared flag.word).mpr (hgate flag hflag)]
        exact hrest
      · push Not at hgate
        obtain ⟨flag, hflag, hmissing⟩ := hgate
        rw [Draft.add_of_missing hflag (Bool.eq_false_iff.mpr hmissing),
          missingWord?_cons_of_notMem hflag (mt (hdeclared flag.word).mp hmissing)]
        rfl

/-! ## The layout -/

theorem settle_fieldPlan (presence others : List (String × List PresenceBit)) (q : Parameter) :
    settle presence (fieldPlan others q) = fieldPlan presence q := by
  unfold settle fieldPlan fieldKind
  cases q.type.erased with
  | primitive kind => cases kind <;> rfl
  | _ => rfl

/-- A layout says of the parameters what there is to say, unless a flags word is missing. -/
theorem ofDeclaration_eq (d : Declaration) : ofDeclaration d =
    match missingWord? [] d.params with
    | some word => .error (.missingFlagsWord d.fullName word)
    | none =>
      let probes := d.params.zipIdx.filterMap fun q => probe? q.1 q.2
      let base := idSize + (d.params.map width).sum
      .ok
        { size := if probes.isEmpty then .constant base else .dynamic base probes
          presence := presenceOf d.params
          fields := d.params.map (fieldPlan (presenceOf d.params)) } := by
  have hnone : ∀ word, word ∈ ([] : List String) ↔ ([] : List Parameter).any (·.isWord word) := by
    simp
  have hpass : d.params.zipIdx.foldlM (Draft.add d.fullName) .empty =
      match missingWord? [] d.params with
      | some word => .error (.missingFlagsWord d.fullName word)
      | none => .ok (.of d.params) :=
    Draft.foldlM_add hnone
  have hfields : (d.params.map (fieldPlan [])).map (settle (presenceOf d.params)) =
      d.params.map (fieldPlan (presenceOf d.params)) := by
    rw [List.map_map]
    exact List.map_congr_left fun q _ => settle_fieldPlan _ [] q
  rw [ofDeclaration, hpass]
  cases missingWord? [] d.params with
  | some word => rfl
  | none =>
      rw [← hfields]
      rfl

theorem ofDeclaration_eq_ok {d : Declaration} {l : Layout} (h : ofDeclaration d = .ok l) :
    missingWord? [] d.params = none ∧ l.presence = presenceOf d.params ∧
      l.fields = d.params.map (fieldPlan (presenceOf d.params)) ∧
      l.size.base = idSize + (d.params.map width).sum ∧
      l.size.probes = d.params.zipIdx.filterMap fun q => probe? q.1 q.2 := by
  rw [ofDeclaration_eq] at h
  split at h
  · cases h
  · rename_i hmissing
    cases h
    refine ⟨hmissing, rfl, rfl, ?_, ?_⟩
    · simp only
      split <;> rfl
    · simp only
      split
      · rename_i hempty
        exact (List.isEmpty_iff.mp hempty).symm
      · rfl

end

end Layout

end TypeLang
