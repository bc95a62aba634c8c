import TypeLang.Proofs.Codec.RoundTrip.Values

/-!
# Reading back fields

While the fields of an object are read, the flags words so far are those that were written
(`WordsRead`), so that exactly the fields that the object has are read. In the end they stand in the
order of the declaration.
-/

namespace TypeLang

open Wire (Takes)

namespace PlanSet

variable {p : PlanSet}

/-- What is read of some fields of an object: the fields that the object has, in their order. -/
structure FieldsSame (fields : Fields) (todo : List FieldPlan) (others : Fields) : Prop where
  keys : (others.map (·.1)).Sublist (todo.map (·.name))
  values : ∀ f ∈ todo, Option.Rel Value.Same (fields.get? f.name) (others.get? f.name)

theorem FieldsSame.cons {fields others : Fields} {f : FieldPlan} {rest : List FieldPlan}
    (entry : Option Value) (hnew : f.name ∉ rest.map (·.name))
    (hentry : Option.Rel Value.Same (fields.get? f.name) entry)
    (h : FieldsSame fields rest others) :
    FieldsSame fields (f :: rest) ((entry.map (f.name, ·)).toList ++ others) := by
  have hkeys : f.name ∉ others.map (·.1) := fun hmem => hnew (h.keys.subset hmem)
  constructor
  · cases entry with
    | none => exact h.keys.cons _
    | some w => exact h.keys.cons_cons _
  · intro g hg
    rcases List.mem_cons.mp hg with rfl | hg
    · cases entry with
      | none =>
          have hnone := Fields.get?_eq_none_of_notMem hkeys
          simpa only [Option.map_none, Option.toList_none, List.nil_append, hnone] using hentry
      | some w =>
          have hsome : Fields.get? ((g.name, w) :: others) g.name = some w :=
            List.lookup_cons_self
          simpa only [Option.map_some, Option.toList_some, List.singleton_append,
            hsome] using hentry
    · have hne : g.name ≠ f.name := fun heq => hnew (heq ▸ List.mem_map_of_mem hg)
      have hvalue := h.values g hg
      cases entry with
      | none => exact hvalue
      | some w =>
          have hskip : Fields.get? ((f.name, w) :: others) g.name = others.get? g.name :=
            Association.lookup_cons_of_ne hne
          simpa only [Option.map_some, Option.toList_some, List.singleton_append,
            hskip] using hvalue

theorem FieldsSame.mem_keys_iff {fields others : Fields} {todo : List FieldPlan}
    (h : FieldsSame fields todo others) {f : FieldPlan} (hf : f ∈ todo) :
    f.name ∈ fields.map (·.1) ↔ f.name ∈ others.map (·.1) := by
  rw [← Association.isSome_lookup_iff_mem, ← Association.isSome_lookup_iff_mem]
  have hvalue := h.values f hf
  show (fields.get? f.name).isSome ↔ (others.get? f.name).isSome
  generalize fields.get? f.name = v at hvalue ⊢
  generalize others.get? f.name = w at hvalue ⊢
  cases hvalue with
  | none => rfl
  | some => rfl

theorem FieldsSame.object {l : Layout} {fields others : Fields} (hdistinct : l.Distinct)
    (hadmits : l.Admits fields) (h : FieldsSame fields l.fields others) (id : UInt32) :
    Value.Same (.object id fields) (.object id others) := by
  have hothers : (others.map (·.1)).Nodup := h.keys.nodup hdistinct
  constructor
  · rw [List.perm_ext_iff_of_nodup hadmits.distinct hothers]
    intro name
    constructor
    · intro hname
      obtain ⟨f, hf, rfl, -⟩ := hadmits.declared name hname
      exact (h.mem_keys_iff hf).mp hname
    · intro hname
      obtain ⟨f, hf, rfl⟩ := List.mem_map.mp (h.keys.subset hname)
      exact (h.mem_keys_iff hf).mpr hname
  · intro name v w hv hw
    obtain ⟨f, hf, rfl, -⟩ := hadmits.declared name (Fields.mem_keys_of_get? hv)
    have hvalue := h.values f hf
    rw [hv, hw] at hvalue
    cases hvalue with
    | some hsame => exact hsame

/-- The fields from some position on are written, and read back behind the flags words `words` and
the fields `done`. -/
def FieldsTake (p : PlanSet) (d : DeclarationPlan) (fields : Fields) (words : List (String × UInt32))
    (done : Fields) (todo : List FieldPlan) : Prop :=
  ∃ bytes others depth, p.writeFields d fields todo = .ofBytes bytes ∧
    FieldsSame fields todo others ∧
    ∀ n, depth ≤ n → Takes
      (readFields (fun f => Slot.read p n (.typed (d.site f) f.valueType)) words done todo)
      bytes (done ++ others)

namespace FieldsTake

variable {d : DeclarationPlan} {fields done : Fields} {words : List (String × UInt32)}
  {f : FieldPlan} {rest : List FieldPlan}

theorem nil (words : List (String × UInt32)) (done : Fields) :
    p.FieldsTake d fields words done [] := by
  refine ⟨[], [], 0, writeFields_nil p d fields, ⟨.refl _, by simp⟩, fun n _ => ?_⟩
  rw [List.append_nil]
  exact .pure done

theorem word {unused : Bool} (hkind : f.kind = .flagsWord unused)
    (hnew : f.name ∉ rest.map (·.name)) (hget : fields.get? f.name = none)
    (h : p.FieldsTake d fields ((f.name, d.layout.flagsWord fields f.name) :: words) done rest) :
    p.FieldsTake d fields words done (f :: rest) := by
  obtain ⟨bytes, others, depth, hwrite, hsame, htakes⟩ := h
  refine ⟨Wire.uint32 (d.layout.flagsWord fields f.name) ++ bytes, others, depth, ?_,
    hsame.cons none hnew ?_, fun n hn => ?_⟩
  · rw [writeFields_cons, writeField_word hkind, hwrite, Output.ofBytes_append_ofBytes]
  · rw [hget]
    exact .none
  · rw [readFields_word hkind]
    exact (Decoding.wire_takes (Wire.Read.uint32_takes _)).bind (htakes n hn)

theorem bit (hkind : f.kind = .trueBit) (hnew : f.name ∉ rest.map (·.name))
    (hfresh : f.name ∉ done.map (·.1))
    (hget : fields.get? f.name = some (.bool (isThere words f)))
    (h : p.FieldsTake d fields words (done ++ [(f.name, .bool (isThere words f))]) rest) :
    p.FieldsTake d fields words done (f :: rest) := by
  obtain ⟨bytes, others, depth, hwrite, hsame, htakes⟩ := h
  refine ⟨bytes, _, depth, ?_, hsame.cons (some (.bool (isThere words f))) hnew ?_,
    fun n hn => ?_⟩
  · rw [writeFields_cons, writeField_bit hkind, hwrite, Output.empty_append]
  · rw [hget]
    exact .some (.refl _)
  · rw [readFields_bit hkind, Fields.set_of_notMem hfresh, Option.map_some, Option.toList_some,
      ← List.append_assoc]
    exact htakes n hn

theorem absent (hkind : (∃ size, f.kind = .fixed size) ∨ f.kind = .dynamic)
    (hnew : f.name ∉ rest.map (·.name)) (hget : fields.get? f.name = none)
    (hgated : f.flag?.isSome) (hthere : isThere words f = false)
    (h : p.FieldsTake d fields words done rest) :
    p.FieldsTake d fields words done (f :: rest) := by
  obtain ⟨bytes, others, depth, hwrite, hsame, htakes⟩ := h
  refine ⟨bytes, others, depth, ?_, hsame.cons none hnew ?_, fun n hn => ?_⟩
  · rw [writeFields_cons, writeField_value hkind, hget]
    simp only
    rw [if_pos hgated, hwrite, Output.empty_append]
  · rw [hget]
    exact .none
  · rw [readFields_value hkind, hthere]
    exact htakes n hn

theorem value (hkind : (∃ size, f.kind = .fixed size) ∨ f.kind = .dynamic)
    (hnew : f.name ∉ rest.map (·.name)) (hfresh : f.name ∉ done.map (·.1)) {v : Value}
    (hget : fields.get? f.name = some v) (hthere : isThere words f = true)
    (hvalue : p.RoundTrips (.typed (d.site f) f.valueType) v)
    (h : ∀ w, p.FieldsTake d fields words (done ++ [(f.name, w)]) rest) :
    p.FieldsTake d fields words done (f :: rest) := by
  obtain ⟨front, w, depth, hfront, hw, hread⟩ := hvalue
  obtain ⟨bytes, others, depth', hwrite, hsame, htakes⟩ := h w
  refine ⟨front ++ bytes, _, max depth depth', ?_, hsame.cons (some w) hnew ?_, fun n hn => ?_⟩
  · rw [Slot.write] at hfront
    rw [writeFields_cons, writeField_value hkind, hget]
    simp only
    rw [hfront, hwrite, Output.ofBytes_append_ofBytes]
  · rw [hget]
    exact .some hw
  · rw [readFields_value hkind, hthere, if_pos rfl, Option.map_some, Option.toList_some,
      ← List.append_assoc]
    apply (hread n (by omega)).bind
    rw [Fields.set_of_notMem hfresh]
    exact htakes n (by omega)

end FieldsTake

section

variable {l : Layout} {fields : Fields} {f : FieldPlan}

theorem get?_word (hdistinct : l.Distinct) (hadmits : l.Admits fields) (hf : f ∈ l.fields)
    (hword : f.valueType = .primitive .flags) : fields.get? f.name = none := by
  refine Fields.get?_eq_none_of_notMem fun hmem => ?_
  obtain ⟨g, hg, hname, htype⟩ := hadmits.declared f.name hmem
  rw [hdistinct.eq_of_name_eq hg hf hname] at htype
  exact htype hword

theorem isThere_eq_isPresent (hplanned : l.IsPlanned) (hdistinct : l.Distinct)
    (hadmits : l.Admits fields) (hf : f ∈ l.fields) (hword : f.valueType ≠ .primitive .flags)
    {flag : Flag} (hflag : f.flag? = some flag) {words : List (String × UInt32)}
    (hlookup : words.lookup flag.word = some (l.flagsWord fields flag.word)) :
    isThere words f = l.isPresent fields f.name := by
  have hset : isThere words f ↔ (l.flagsWord fields flag.word).toNat.testBit flag.bit := by
    rw [isThere, hflag]
    simp only [isSet, hlookup, bne_iff_ne]
    exact flag.and_mask_ne_zero_iff _
  rw [Bool.eq_iff_iff, hset, Layout.testBit_flagsWord hplanned]
  constructor
  · rintro ⟨g, hgates, hpresent⟩
    obtain ⟨hg, hgflag⟩ := (hdistinct.gates_iff hplanned).mp hgates
    by_cases htype : g.valueType = .primitive .flags
    · have hkind : g.kind ≠ .trueBit := by
        apply (hplanned.treatment hg).kind_ne_bit
        rw [htype]
        intro heq
        cases heq
      rw [hdistinct.isPresent_value hg hkind, Fields.contains,
        get?_word hdistinct hadmits hg htype] at hpresent
      cases hpresent
    · have hshared := hadmits.shared f hf g hg (by rw [hflag]; rfl) (by rw [hflag, hgflag]) hword
        htype
      rw [hshared]
      exact hpresent
  · intro hpresent
    exact ⟨f, (hdistinct.gates_iff hplanned).mpr ⟨hf, hflag⟩, hpresent⟩

end

section

variable {schemas : List Schema} {capabilities : Capabilities}
  (hp : compile schemas capabilities = .ok p) {d : DeclarationPlan} (hd : d ∈ p.declarations)
  (hdistinct : d.layout.Distinct) {fields : Fields} (hadmits : d.layout.Admits fields)
  (hvalues : ∀ f ∈ d.layout.fields, ¬f.IsBit → ∀ v, fields.get? f.name = some v →
    p.Canonical (.typed (d.site f) f.valueType) v ∧ p.RoundTrips (.typed (d.site f) f.valueType) v)

def WordsRead (l : Layout) (fields : Fields) (front : List FieldPlan)
    (words : List (String × UInt32)) : Prop :=
  ∀ word, (∃ g ∈ front, g.isWord word) → words.lookup word = some (l.flagsWord fields word)

theorem WordsRead.push {l : Layout} {fields : Fields} {front : List FieldPlan}
    {words : List (String × UInt32)} (h : WordsRead l fields front words) (f : FieldPlan) :
    WordsRead l fields (front ++ [f]) ((f.name, l.flagsWord fields f.name) :: words) := by
  rintro word ⟨g, hg, hword⟩
  by_cases hname : word = f.name
  · rw [hname]
    exact List.lookup_cons_self
  · rw [Association.lookup_cons_of_ne hname]
    rcases List.mem_append.mp hg with hg | hg
    · exact h word ⟨g, hg, hword⟩
    · rw [List.mem_singleton.mp hg] at hword
      simp only [FieldPlan.isWord, Bool.and_eq_true, beq_iff_eq] at hword
      exact absurd hword.2.symm hname

theorem WordsRead.keep {l : Layout} {fields : Fields} {front : List FieldPlan}
    {words : List (String × UInt32)} (h : WordsRead l fields front words) {f : FieldPlan}
    (htype : f.valueType ≠ .primitive .flags) : WordsRead l fields (front ++ [f]) words := by
  rintro word ⟨g, hg, hword⟩
  rcases List.mem_append.mp hg with hg | hg
  · exact h word ⟨g, hg, hword⟩
  · rw [List.mem_singleton.mp hg] at hword
    simp only [FieldPlan.isWord, TypeExpr.isFlagsWord, Bool.and_eq_true, decide_eq_true_iff]
      at hword
    exact absurd hword.1 htype

include hp hd hdistinct hadmits

theorem isThere_of_wordsRead {front rest : List FieldPlan} {f : FieldPlan}
    (hsplit : d.layout.fields = front ++ f :: rest) {words : List (String × UInt32)}
    (hwords : WordsRead d.layout fields front words) (hword : f.valueType ≠ .primitive .flags)
    {flag : Flag} (hflag : f.flag? = some flag) :
    isThere words f = d.layout.isPresent fields f.name := by
  have hplanned := planned_of_mem hp hd
  have hf : f ∈ d.layout.fields := List.mem_iff_append.mpr ⟨front, rest, hsplit⟩
  have hlookup := hwords flag.word (Layout.exists_word hplanned hsplit hflag)
  exact isThere_eq_isPresent hplanned hdistinct hadmits hf hword hflag hlookup

theorem isThere_eq_contains {front rest : List FieldPlan} {f : FieldPlan}
    (hsplit : d.layout.fields = front ++ f :: rest) {words : List (String × UInt32)}
    (hwords : WordsRead d.layout fields front words) (hword : f.valueType ≠ .primitive .flags)
    (hbit : f.valueType ≠ .primitive .trueLiteral) :
    isThere words f = fields.contains f.name := by
  have hf : f ∈ d.layout.fields := List.mem_iff_append.mpr ⟨front, rest, hsplit⟩
  cases hflag : f.flag? with
  | none =>
      rw [hadmits.required f hf hflag hword, isThere, hflag]
  | some flag =>
      have hkind := ((planned_of_mem hp hd).treatment hf).kind_ne_bit hbit
      rw [isThere_of_wordsRead hp hd hdistinct hadmits hsplit hwords hword hflag,
        hdistinct.isPresent_value hf hkind]

include hvalues

theorem get?_bit {front rest : List FieldPlan} {f : FieldPlan}
    (hsplit : d.layout.fields = front ++ f :: rest) {words : List (String × UInt32)}
    (hwords : WordsRead d.layout fields front words) (hkind : f.kind = .trueBit)
    (htype : f.valueType = .primitive .trueLiteral) :
    fields.get? f.name = some (.bool (isThere words f)) := by
  have hf : f ∈ d.layout.fields := List.mem_iff_append.mpr ⟨front, rest, hsplit⟩
  have hword : f.valueType ≠ .primitive .flags := by
    rw [htype]
    intro heq
    cases heq
  cases hflag : f.flag? with
  | none =>
      have hthere : isThere words f = true := by
        rw [isThere, hflag]
      have hcontains := hadmits.required f hf hflag hword
      obtain ⟨v, hv⟩ := Option.isSome_iff_exists.mp hcontains
      have hbit : ¬f.IsBit := by
        rintro ⟨hsome, -⟩
        rw [hflag] at hsome
        cases hsome
      have hcanonical := (hvalues f hf hbit v hv).1
      rw [htype] at hcanonical
      cases hcanonical with
      | primitive admits =>
          cases v with
          | bool b =>
              cases (admits : b = true)
              rw [hv, hthere]
          | _ => exact admits.elim
  | some flag =>
      obtain ⟨b, hb⟩ := hadmits.bits f hf (by rw [hflag]; rfl) htype
      have hpresent := hdistinct.isPresent_bit hf hkind fields
      rw [isThere_of_wordsRead hp hd hdistinct hadmits hsplit hwords hword hflag]
      rw [hb] at hpresent ⊢
      cases b with
      | true => rw [hpresent.mpr rfl]
      | false =>
          have hnot : d.layout.isPresent fields f.name = false := by
            rw [← Bool.not_eq_true, hpresent]
            intro heq
            cases heq
          rw [hnot]

theorem fieldsTake {front todo : List FieldPlan} (hsplit : d.layout.fields = front ++ todo)
    {words : List (String × UInt32)} (hwords : WordsRead d.layout fields front words)
    {done : Fields} (hdone : ∀ name ∈ done.map (·.1), name ∈ front.map (·.name)) :
    p.FieldsTake d fields words done todo := by
  induction todo generalizing front words done with
  | nil => exact .nil words done
  | cons f rest ih =>
      have hf : f ∈ d.layout.fields := List.mem_iff_append.mpr ⟨front, rest, hsplit⟩
      have hnames := hdistinct
      unfold Layout.Distinct at hnames
      rw [hsplit, List.map_append, List.map_cons, List.nodup_append, List.nodup_cons] at hnames
      have hnew : f.name ∉ rest.map (·.name) := hnames.2.1.1
      have hfresh : f.name ∉ done.map (·.1) := fun hmem =>
        hnames.2.2 f.name (hdone _ hmem) f.name List.mem_cons_self rfl
      have hsplit' : d.layout.fields = (front ++ [f]) ++ rest := by
        rw [hsplit, List.append_assoc]
        rfl
      have hkeep : ∀ name ∈ done.map (·.1), name ∈ (front ++ [f]).map (·.name) := by
        intro name hname
        rw [List.map_append]
        exact List.mem_append_left _ (hdone name hname)
      have hset (v : Value) :
          ∀ name ∈ (done ++ [(f.name, v)]).map (·.1), name ∈ (front ++ [f]).map (·.name) := by
        intro name hname
        rw [List.map_append, List.mem_append] at hname
        rcases hname with hname | hname
        · exact hkeep name hname
        · rw [List.mem_singleton.mp hname, List.map_append]
          exact List.mem_append_right _ List.mem_cons_self
      cases (planned_of_mem hp hd).treatment hf with
      | word _ kind type =>
          have hnone := get?_word hdistinct hadmits hf type
          exact (ih hsplit' (hwords.push f) hkeep).word kind hnew hnone
      | bit kind type =>
          have hget := get?_bit hp hd hdistinct hadmits hvalues hsplit hwords kind type
          have hword : f.valueType ≠ .primitive .flags := by
            rw [type]
            simp
          exact (ih hsplit' (hwords.keep hword) (hset _)).bit kind hnew hfresh hget
      | value kind word bit =>
          have hthere := isThere_eq_contains hp hd hdistinct hadmits hsplit hwords word bit
          cases hget : fields.get? f.name with
          | none =>
              rw [Fields.contains, hget] at hthere
              have hgated : f.flag?.isSome := by
                cases hflag : f.flag? with
                | none =>
                    rw [isThere, hflag] at hthere
                    cases hthere
                | some flag => rfl
              exact (ih hsplit' (hwords.keep word) hkeep).absent kind hnew hget hgated hthere
          | some v =>
              rw [Fields.contains, hget] at hthere
              have hvalue := (hvalues f hf (fun hbit => bit hbit.2) v hget).2
              exact .value kind hnew hfresh hget hthere hvalue fun w =>
                ih hsplit' (hwords.keep word) (hset w)

theorem roundTrips_body : p.RoundTrips (.body d) (.object d.id fields) := by
  have hwords : WordsRead d.layout fields [] [] := by
    rintro word ⟨g, hg, -⟩
    cases hg
  have hdone : ∀ name ∈ ([] : Fields).map (·.1), name ∈ ([] : List FieldPlan).map (·.name) := by
    intro name hname
    cases hname
  obtain ⟨bytes, others, depth, hwrite, hsame, htakes⟩ :=
    fieldsTake hp hd hdistinct hadmits hvalues (List.nil_append d.layout.fields).symm hwords hdone
  refine ⟨bytes, .object d.id others, depth + 1, hwrite, hsame.object hdistinct hadmits d.id, ?_⟩
  intro n hn
  obtain ⟨n, rfl⟩ : ∃ k, n = k + 1 := ⟨n - 1, by omega⟩
  rw [Slot.read, readBody_succ]
  exact (htakes n (by omega)).bind_pure rfl

end

end PlanSet

end TypeLang
