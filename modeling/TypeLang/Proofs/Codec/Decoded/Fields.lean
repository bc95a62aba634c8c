import TypeLang.Proofs.Codec.RoundTrip.Fields

/-!
# Fields as they are read

Whatever bytes the fields of an object are read from, `FieldsRead` says what is set, and how many
bytes were taken. A field is there or not by the flags words in front of it, which are the same as
those that have been read in the end. Written again, the fields take no more bytes than they did.
-/

namespace TypeLang

open Wire (Yields)

namespace PlanSet

variable {p : PlanSet}

/-- How some fields of an object have been read behind the flags words `words`: what was set, and
how many bytes were taken. Values are `good`. -/
inductive FieldsRead (good : FieldPlan → Value → Nat → Prop) :
    List (String × UInt32) → List FieldPlan → Fields → Nat → Prop
  | nil {words : List (String × UInt32)} : FieldsRead good words [] [] 0
  | word {words : List (String × UInt32)} {f : FieldPlan} {rest : List FieldPlan} {out : Fields}
      {taken : Nat} (value : UInt32) (type : f.valueType = .primitive .flags)
      (more : FieldsRead good ((f.name, value) :: words) rest out taken) :
      FieldsRead good words (f :: rest) out (4 + taken)
  | bit {words : List (String × UInt32)} {f : FieldPlan} {rest : List FieldPlan} {out : Fields}
      {taken : Nat} (kind : f.kind = .trueBit) (more : FieldsRead good words rest out taken) :
      FieldsRead good words (f :: rest) ((f.name, .bool (isThere words f)) :: out) taken
  | value {words : List (String × UInt32)} {f : FieldPlan} {rest : List FieldPlan} {out : Fields}
      {taken size : Nat} {v : Value} (word : f.valueType ≠ .primitive .flags)
      (bit : f.valueType ≠ .primitive .trueLiteral) (there : isThere words f)
      (isGood : good f v size) (more : FieldsRead good words rest out taken) :
      FieldsRead good words (f :: rest) ((f.name, v) :: out) (size + taken)
  | absent {words : List (String × UInt32)} {f : FieldPlan} {rest : List FieldPlan} {out : Fields}
      {taken : Nat} (word : f.valueType ≠ .primitive .flags)
      (bit : f.valueType ≠ .primitive .trueLiteral) (there : isThere words f = false)
      (more : FieldsRead good words rest out taken) :
      FieldsRead good words (f :: rest) out taken

theorem readFields_yields {good : FieldPlan → Value → Nat → Prop}
    {read : FieldPlan → Decoding Value} {todo : List FieldPlan}
    (htreatment : ∀ f ∈ todo, f.Treatment)
    (hread : ∀ f ∈ todo, f.valueType ≠ .primitive .flags →
      f.valueType ≠ .primitive .trueLiteral → Yields (read f) (good f))
    (hnames : (todo.map (·.name)).Nodup) (words : List (String × UInt32)) {done : Fields}
    (hdone : ∀ name ∈ done.map (·.1), name ∉ todo.map (·.name)) :
    Yields (readFields read words done todo) fun all taken =>
      ∃ out, all = done ++ out ∧ FieldsRead good words todo out taken := by
  induction todo generalizing words done with
  | nil => exact .pure ⟨[], by simp, .nil⟩
  | cons f rest ih =>
      obtain ⟨hnew, hnames⟩ := List.nodup_cons.mp hnames
      have hrest := ih (fun g hg => htreatment g (List.mem_cons_of_mem _ hg))
        (fun g hg => hread g (List.mem_cons_of_mem _ hg)) hnames
      have hfresh : f.name ∉ done.map (·.1) := fun hmem => hdone _ hmem List.mem_cons_self
      have hkeep : ∀ name ∈ done.map (·.1), name ∉ rest.map (·.name) := fun name hname hmem =>
        hdone name hname (List.mem_cons_of_mem _ hmem)
      have hset (v : Value) : ∀ name ∈ (done ++ [(f.name, v)]).map (·.1),
          name ∉ rest.map (·.name) := by
        intro name hname
        rw [List.map_append, List.mem_append] at hname
        rcases hname with hname | hname
        · exact hkeep name hname
        · rw [List.mem_singleton.mp hname]
          exact hnew
      cases htreatment f List.mem_cons_self with
      | word _ kind type =>
          rw [readFields_word kind]
          apply (Decoding.wire_yields Wire.Read.uint32_yields).bind
          rintro value _ rfl
          apply (hrest _ hkeep).mono
          rintro _ taken ⟨out, rfl, hout⟩
          exact ⟨out, rfl, .word value type hout⟩
      | bit kind type =>
          rw [readFields_bit kind, Fields.set_of_notMem hfresh]
          apply (hrest _ (hset _)).mono
          rintro _ taken ⟨out, rfl, hout⟩
          exact ⟨_, by rw [List.append_assoc]; rfl, .bit kind hout⟩
      | value kind word bit =>
          rw [readFields_value kind]
          refine .ite (fun hthere => ?_) fun hthere => ?_
          · apply (hread f List.mem_cons_self word bit).bind
            intro v size hgood
            rw [Fields.set_of_notMem hfresh]
            apply (hrest _ (hset v)).mono
            rintro _ taken ⟨out, rfl, hout⟩
            exact ⟨_, by rw [List.append_assoc]; rfl, .value word bit hthere hgood hout⟩
          · apply (hrest _ hkeep).mono
            rintro _ taken ⟨out, rfl, hout⟩
            exact ⟨out, rfl, .absent word bit (by simpa using hthere) hout⟩

namespace FieldsRead

variable {good : FieldPlan → Value → Nat → Prop} {words : List (String × UInt32)}
  {todo : List FieldPlan} {out : Fields} {taken : Nat}

theorem keys (h : FieldsRead good words todo out taken) :
    (out.map (·.1)).Sublist (todo.map (·.name)) := by
  induction h with
  | nil => exact .refl _
  | word _ _ _ ih => exact ih.cons _
  | bit _ _ ih => exact ih.cons_cons _
  | value _ _ _ _ _ ih => exact ih.cons_cons _
  | absent _ _ _ _ ih => exact ih.cons _

theorem get?_of_notMem (h : FieldsRead good words todo out taken) {name : String}
    (hname : name ∉ todo.map (·.name)) : out.get? name = none :=
  Fields.get?_eq_none_of_notMem fun hmem => hname (h.keys.subset hmem)

end FieldsRead

/-- What was read of a field, by the words that have been read in the end. -/
inductive EntryRead (good : FieldPlan → Value → Nat → Prop) (words : List (String × UInt32))
    (f : FieldPlan) : Option Value → Prop
  | word (type : f.valueType = .primitive .flags) : EntryRead good words f none
  | bit (kind : f.kind = .trueBit) : EntryRead good words f (some (.bool (isThere words f)))
  | value {v : Value} {size : Nat} (word : f.valueType ≠ .primitive .flags)
      (bit : f.valueType ≠ .primitive .trueLiteral) (there : isThere words f)
      (isGood : good f v size) : EntryRead good words f (some v)
  | absent (word : f.valueType ≠ .primitive .flags) (bit : f.valueType ≠ .primitive .trueLiteral)
      (there : isThere words f = false) : EntryRead good words f none

theorem isThere_congr {words others : List (String × UInt32)} {f : FieldPlan}
    (h : ∀ flag, f.flag? = some flag → words.lookup flag.word = others.lookup flag.word) :
    isThere words f = isThere others f := by
  unfold isThere
  cases hflag : f.flag? with
  | none => rfl
  | some flag =>
      simp only [isSet, h flag hflag]

def WordsInFront (todo : List FieldPlan) : Prop :=
  ∀ front f back, todo = front ++ f :: back → ∀ flag, f.flag? = some flag →
    flag.word ∉ (f :: back).map (·.name)

theorem WordsInFront.tail {f : FieldPlan} {rest : List FieldPlan}
    (h : WordsInFront (f :: rest)) : WordsInFront rest := by
  rintro front g back rfl
  exact h (f :: front) g back rfl

theorem wordsInFront_of_planned {l : Layout} (hplanned : l.IsPlanned) (hdistinct : l.Distinct) :
    WordsInFront l.fields := by
  intro front f back hsplit flag hflag hmem
  obtain ⟨g, hg, hword⟩ := Layout.exists_word hplanned hsplit hflag
  unfold Layout.Distinct at hdistinct
  rw [hsplit, List.map_append, List.nodup_append] at hdistinct
  have hne := hdistinct.2.2 g.name (List.mem_map_of_mem hg) flag.word hmem
  simp only [FieldPlan.isWord, Bool.and_eq_true, beq_iff_eq] at hword
  exact hne hword.2

namespace FieldsRead

variable {good : FieldPlan → Value → Nat → Prop} {words : List (String × UInt32)}
  {todo : List FieldPlan} {out : Fields} {taken : Nat}

/-- A field is there by the words in front of it exactly if it is by those of the whole object. -/
private theorem isThere_final {f : FieldPlan} {rest : List FieldPlan}
    {words final : List (String × UInt32)} (hfront : WordsInFront (f :: rest))
    (hfinal : ∀ word ∉ rest.map (·.name), final.lookup word = words.lookup word) :
    isThere words f = isThere final f := by
  refine isThere_congr fun flag hflag => (hfinal flag.word fun hmem => ?_).symm
  exact hfront [] f rest rfl flag hflag (List.mem_cons_of_mem _ hmem)

private theorem get?_cons {f g : FieldPlan} {rest : List FieldPlan} {out : Fields}
    (hnew : f.name ∉ rest.map (·.name)) (hg : g ∈ rest) (v : Value) :
    Fields.get? ((f.name, v) :: out) g.name = out.get? g.name := by
  refine Association.lookup_cons_of_ne fun hname => hnew ?_
  rw [← hname]
  exact List.mem_map_of_mem hg

theorem entries (h : FieldsRead good words todo out taken) (hnames : (todo.map (·.name)).Nodup)
    (hfront : WordsInFront todo) :
    ∃ final : List (String × UInt32),
      (∀ word ∉ todo.map (·.name), final.lookup word = words.lookup word) ∧
      ∀ f ∈ todo, EntryRead good final f (out.get? f.name) := by
  induction h with
  | nil => exact ⟨_, fun _ _ => rfl, fun f hf => nomatch hf⟩
  | @word words f rest out taken value type more ih =>
      obtain ⟨hnew, hnames⟩ := List.nodup_cons.mp hnames
      obtain ⟨final, hfinal, hentries⟩ := ih hnames hfront.tail
      refine ⟨final, fun word hword => ?_, fun g hg => ?_⟩
      · rw [List.map_cons, List.mem_cons, not_or] at hword
        rw [hfinal word hword.2, Association.lookup_cons_of_ne hword.1]
      · rcases List.mem_cons.mp hg with rfl | hg
        · rw [more.get?_of_notMem hnew]
          exact .word type
        · exact hentries g hg
  | @bit words f rest out taken kind more ih =>
      obtain ⟨hnew, hnames⟩ := List.nodup_cons.mp hnames
      obtain ⟨final, hfinal, hentries⟩ := ih hnames hfront.tail
      refine ⟨final, fun word hword => hfinal word ?_, fun g hg => ?_⟩
      · exact fun hmem => hword (List.mem_cons_of_mem _ hmem)
      · rcases List.mem_cons.mp hg with rfl | hg
        · rw [isThere_final hfront hfinal, Fields.get?, List.lookup_cons_self]
          exact .bit kind
        · rw [get?_cons hnew hg]
          exact hentries g hg
  | @value words f rest out taken size v word bit there isGood more ih =>
      obtain ⟨hnew, hnames⟩ := List.nodup_cons.mp hnames
      obtain ⟨final, hfinal, hentries⟩ := ih hnames hfront.tail
      rw [isThere_final hfront hfinal] at there
      refine ⟨final, fun word hword => hfinal word ?_, fun g hg => ?_⟩
      · exact fun hmem => hword (List.mem_cons_of_mem _ hmem)
      · rcases List.mem_cons.mp hg with rfl | hg
        · rw [Fields.get?, List.lookup_cons_self]
          exact .value word bit there isGood
        · rw [get?_cons hnew hg]
          exact hentries g hg
  | @absent words f rest out taken word bit there more ih =>
      obtain ⟨hnew, hnames⟩ := List.nodup_cons.mp hnames
      obtain ⟨final, hfinal, hentries⟩ := ih hnames hfront.tail
      rw [isThere_final hfront hfinal] at there
      refine ⟨final, fun word hword => hfinal word ?_, fun g hg => ?_⟩
      · exact fun hmem => hword (List.mem_cons_of_mem _ hmem)
      · rcases List.mem_cons.mp hg with rfl | hg
        · rw [more.get?_of_notMem hnew]
          exact .absent word bit there
        · exact hentries g hg

theorem length_writeFields_le (h : FieldsRead good words todo out taken)
    (hnames : (todo.map (·.name)).Nodup) {d : DeclarationPlan}
    (htreatment : ∀ f ∈ todo, f.Treatment) {fields : Fields}
    (hfields : ∀ f ∈ todo, fields.get? f.name = out.get? f.name)
    (hgood : ∀ f ∈ todo, ∀ v size, fields.get? f.name = some v → good f v size →
      (p.writeTyped (d.site f) f.valueType v).bytes.length ≤ size) :
    (p.writeFields d fields todo).bytes.length ≤ taken := by
  have hcons {f : FieldPlan} {rest : List FieldPlan} {m n : Nat}
      (hfield : (p.writeField d fields f).bytes.length ≤ m)
      (hrest : (p.writeFields d fields rest).bytes.length ≤ n) :
      (p.writeFields d fields (f :: rest)).bytes.length ≤ m + n := by
    rw [writeFields_cons]
    exact (Output.length_append_le ..).trans (Nat.add_le_add hfield hrest)
  induction h with
  | nil =>
      rw [writeFields_nil]
      exact Nat.le_refl 0
  | @word words f rest out taken value type more ih =>
      obtain ⟨hf, htreatment⟩ := List.forall_mem_cons.mp htreatment
      have hrest := ih (List.nodup_cons.mp hnames).2 htreatment
        (List.forall_mem_cons.mp hfields).2 (List.forall_mem_cons.mp hgood).2
      refine hcons ?_ hrest
      cases hf with
      | word _ kind =>
          rw [writeField_word kind]
          exact (Wire.length_uint32 _).le
      | bit _ type' =>
          rw [type] at type'
          cases type'
      | value _ word => exact absurd type word
  | @bit words f rest out taken kind more ih =>
      obtain ⟨hnew, hnames⟩ := List.nodup_cons.mp hnames
      have hfields (g : FieldPlan) (hg : g ∈ rest) : fields.get? g.name = out.get? g.name := by
        rw [hfields g (List.mem_cons_of_mem _ hg), get?_cons hnew hg]
      have hrest := ih hnames (List.forall_mem_cons.mp htreatment).2 hfields
        (List.forall_mem_cons.mp hgood).2
      rw [← Nat.zero_add taken]
      refine hcons ?_ hrest
      rw [writeField_bit kind]
      exact Nat.le_refl 0
  | @value words f rest out taken size v word bit there isGood more ih =>
      obtain ⟨hnew, hnames⟩ := List.nodup_cons.mp hnames
      obtain ⟨hf, htreatment⟩ := List.forall_mem_cons.mp htreatment
      obtain ⟨hfirst, hgood⟩ := List.forall_mem_cons.mp hgood
      have hget : fields.get? f.name = some v := by
        rw [hfields f List.mem_cons_self, Fields.get?, List.lookup_cons_self]
      have hfields (g : FieldPlan) (hg : g ∈ rest) : fields.get? g.name = out.get? g.name := by
        rw [hfields g (List.mem_cons_of_mem _ hg), get?_cons hnew hg]
      refine hcons ?_ (ih hnames htreatment hfields hgood)
      rw [writeField_value (hf.kind_of_value word bit), hget]
      exact hfirst v size hget isGood
  | @absent words f rest out taken word bit there more ih =>
      obtain ⟨hnew, hnames⟩ := List.nodup_cons.mp hnames
      obtain ⟨hf, htreatment⟩ := List.forall_mem_cons.mp htreatment
      have hget : fields.get? f.name = none := by
        rw [hfields f List.mem_cons_self, more.get?_of_notMem hnew]
      have hrest := ih hnames htreatment (List.forall_mem_cons.mp hfields).2
        (List.forall_mem_cons.mp hgood).2
      rw [← Nat.zero_add taken]
      refine hcons ?_ hrest
      rw [writeField_value (hf.kind_of_value word bit), hget]
      simp only
      split <;> exact Nat.le_refl 0

end FieldsRead

end PlanSet

end TypeLang
