import Mathlib
import TypeLang.Proofs.Codec.Fields

/-!
# Fields behind flags

A gated field should be written exactly if its bit is set in the flags word that governs it, because
the reader goes by the bit. The writer puts the word together from all fields that it tells about,
and goes by each field itself when it writes the values. `isWritten_iff_testBit_iff` is exact about
when the two agree. They do, by `isWritten_iff_testBit`, if the declaration repeats no name and no
other field uses the bit. They do not if the word is declared again behind the field:
`written_without_bit` is such an object.
-/

namespace TypeLang

namespace FieldPlan

/-- The writer puts bytes of the field in the body: of a flags word always, of `true` never, and of
any other field if it has a value. -/
def isWritten (f : FieldPlan) (fields : Fields) : Bool :=
  f.valueType.isFlagsWord ||
    (f.valueType != .primitive .trueLiteral && fields.contains f.name)

end FieldPlan

namespace Layout

/-- The flags word that governs a gated field is the last one of its name in front of it. -/
theorem exists_governing_word {l : Layout} (h : l.IsPlanned) {front back : List FieldPlan}
    {f : FieldPlan} {flag : Flag} (hsplit : l.fields = front ++ f :: back)
    (hflag : f.flag? = some flag) :
    ∃ before w between, front = before ++ w :: between ∧ w.isWord flag.word ∧
      ∀ g ∈ between, g.isWord flag.word = false := by
  obtain ⟨g, hg, hword⟩ := exists_word h hsplit hflag
  have hfound : (front.reverse.find? (·.isWord flag.word)).isSome :=
    List.find?_isSome.mpr ⟨g, List.mem_reverse.mpr hg, hword⟩
  obtain ⟨w, hw⟩ := Option.isSome_iff_exists.mp hfound
  obtain ⟨hword, between, before, hreverse, hnone⟩ := List.find?_eq_some_iff_append.mp hw
  refine ⟨before.reverse, w, between.reverse, ?_, hword, ?_⟩
  · have hfront := congrArg List.reverse hreverse
    simpa using hfront
  · intro g hg
    simpa using hnone g (List.mem_reverse.mp hg)

end Layout

namespace PlanSet

variable {p : PlanSet} {d : DeclarationPlan} {fields : Fields}

theorem writeFields_append (front back : List FieldPlan) :
    p.writeFields d fields (front ++ back) =
      p.writeFields d fields front ++ p.writeFields d fields back := by
  induction front with
  | nil => rw [List.nil_append, writeFields_nil, Output.empty_append]
  | cons f front ih =>
      rw [List.cons_append, writeFields_cons, ih, writeFields_cons, Output.append_assoc]

theorem writeField_of_isWord {f : FieldPlan} {word : String} (hf : f.Treatment)
    (hword : f.isWord word) :
    p.writeField d fields f = .ofBytes (Wire.uint32 (d.layout.flagsWord fields word)) := by
  unfold FieldPlan.isWord TypeExpr.isFlagsWord at hword
  rw [Bool.and_eq_true, decide_eq_true_iff, beq_iff_eq] at hword
  obtain ⟨htype, rfl⟩ := hword
  cases hf with
  | word _ kind => exact writeField_word kind
  | bit _ type => rw [htype] at type; cases type
  | value _ word => exact absurd htype word

theorem writeField_of_not_isWritten {f : FieldPlan} (hf : f.Treatment) (hgated : f.flag?.isSome)
    (hnot : f.isWritten fields = false) : p.writeField d fields f = .empty := by
  unfold FieldPlan.isWritten TypeExpr.isFlagsWord at hnot
  cases hf with
  | word _ _ type => simp [type] at hnot
  | bit kind => exact writeField_bit kind
  | value kind word bit =>
      rw [writeField_value kind]
      have hnone : fields.get? f.name = none := by
        simpa [word, bit, Fields.contains] using hnot
      rw [hnone]
      simp only
      rw [if_pos hgated]

/-- A field that has its bit to itself follows it, if no name is repeated. -/
theorem isWritten_iff_testBit (hplanned : d.layout.IsPlanned) (hnames : d.layout.Distinct)
    {f : FieldPlan} {flag : Flag} (hf : f ∈ d.layout.fields) (hflag : f.flag? = some flag)
    (hword : f.valueType ≠ .primitive .flags) (hbit : f.valueType ≠ .primitive .trueLiteral)
    (halone : ∀ g ∈ d.layout.fields, g.flag? = some flag → g = f) :
    f.isWritten fields ↔ (d.layout.flagsWord fields flag.word).toNat.testBit flag.bit := by
  have hkind := (hplanned.treatment hf).kind_ne_bit hbit
  have hwritten : f.isWritten fields = fields.contains f.name := by
    simp [FieldPlan.isWritten, TypeExpr.isFlagsWord, hword, hbit]
  have hpresent := hnames.isPresent_value hf hkind fields
  rw [Layout.testBit_flagsWord hplanned, hwritten]
  constructor
  · intro hcontains
    rw [← hpresent] at hcontains
    exact ⟨f, (hnames.gates_iff hplanned).mpr ⟨hf, hflag⟩, hcontains⟩
  · rintro ⟨g, hgates, hthere⟩
    obtain ⟨hg, hgflag⟩ := (hnames.gates_iff hplanned).mp hgates
    rw [halone g hg hgflag, hpresent] at hthere
    exact hthere

/-- When the bytes of an object follow its flags words. A gated field has a governing word in front
of it. The field is written exactly if its bit is set in what is written for that word, on two
conditions: if it is written, some field is there that uses the bit behind the last word of that
name, and if such a field is there, it is written. -/
theorem isWritten_iff_testBit_iff {schemas : List Schema} {capabilities : Capabilities}
    (hp : compile schemas capabilities = .ok p) (hd : d ∈ p.declarations) {body : List UInt8}
    (hbody : p.writeFields d fields d.layout.fields = .ofBytes body)
    {front back : List FieldPlan} {f : FieldPlan} {flag : Flag}
    (hsplit : d.layout.fields = front ++ f :: back) (hflag : f.flag? = some flag) :
    ∃ before w between, front = before ++ w :: between ∧ w.isWord flag.word ∧
      (∀ g ∈ between, g.isWord flag.word = false) ∧
      ∃ head word middle value tail,
        body = head ++ (Wire.uint32 word ++ (middle ++ (value ++ tail))) ∧
        p.writeFields d fields before = .ofBytes head ∧
        p.writeFields d fields between = .ofBytes middle ∧
        p.writeField d fields f = .ofBytes value ∧
        (f.isWritten fields = false → value = []) ∧
        ((f.isWritten fields ↔ word.toNat.testBit flag.bit) ↔
          (f.isWritten fields → ∃ g, d.layout.Gates flag g ∧ d.layout.isPresent fields g.name) ∧
          ∀ g, d.layout.Gates flag g → d.layout.isPresent fields g.name → f.isWritten fields) := by
  have hplanned := planned_of_mem hp hd
  obtain ⟨before, w, between, rfl, hw, hbetween⟩ :=
    Layout.exists_governing_word hplanned hsplit hflag
  have htreatment : ∀ g ∈ d.layout.fields, g.Treatment := fun g hg => hplanned.treatment hg
  rw [hsplit] at hbody htreatment
  rw [writeFields_append, writeFields_append, writeFields_cons, writeFields_cons] at hbody
  obtain ⟨leading, rest, hleading, hrest, rfl⟩ := Output.append_eq_ofBytes.mp hbody
  obtain ⟨head, more, hhead, hmore, rfl⟩ := Output.append_eq_ofBytes.mp hleading
  obtain ⟨written, middle, hwritten, hmiddle, rfl⟩ := Output.append_eq_ofBytes.mp hmore
  obtain ⟨value, tail, hvalue, -, rfl⟩ := Output.append_eq_ofBytes.mp hrest
  rw [writeField_of_isWord (htreatment w (by simp)) hw, Output.ofBytes_inj] at hwritten
  refine ⟨before, w, between, rfl, hw, hbetween, head, d.layout.flagsWord fields flag.word, middle,
    value, tail, ?_, hhead, hmiddle, hvalue, ?_, ?_⟩
  · rw [hwritten]
    simp only [List.append_assoc]
  · intro hnot
    rw [writeField_of_not_isWritten (htreatment f (by simp)) (by rw [hflag]; rfl) hnot] at hvalue
    exact (Output.ofBytes_inj.mp hvalue).symm
  · rw [Layout.testBit_flagsWord hplanned]
    constructor
    · intro hlaw
      exact ⟨hlaw.mp, fun g hgates hpresent => hlaw.mpr ⟨g, hgates, hpresent⟩⟩
    · rintro ⟨hthere, hwritten⟩
      exact ⟨hthere, fun ⟨g, hgates, hpresent⟩ => hwritten g hgates hpresent⟩

theorem isWritten_iff_testBit_iff_person :
    let fields : Fields :=
      [("name", .string "a"), ("home", .object 1 [("x", .int 3), ("y", .int 4)])]
    let body : List UInt8 := [1, 0, 0, 0, 3, 0, 0, 0, 4, 0, 0, 0, 1, 97, 0, 0]
    let name := person.layout.fields.getD 2 default
    people.writeFields person fields person.layout.fields = .ofBytes body ∧
      name.flag? = some ⟨"flags", 0⟩ ∧
      ∃ head word tail, body = head ++ (Wire.uint32 word ++ tail) ∧
        (name.isWritten fields ↔ word.toNat.testBit 0) := by
  intro fields body name
  have hbody : people.writeFields person fields person.layout.fields = .ofBytes body := by
    cbv
  have hsplit : person.layout.fields =
      person.layout.fields.take 2 ++ name :: person.layout.fields.drop 3 := by
    rfl
  have hflag : name.flag? = some ⟨"flags", 0⟩ := by
    rfl
  obtain ⟨-, -, -, -, -, -, head, word, middle, value, tail, hsegments, -, -, -, -, hlaw⟩ :=
    isWritten_iff_testBit_iff compile_people person_mem hbody hsplit hflag
  refine ⟨hbody, hflag, head, word, middle ++ (value ++ tail), hsegments, hlaw.mpr ⟨?_, ?_⟩⟩
  · intro _
    exact ⟨name, ⟨_, _, hsplit, hflag, by decide⟩, by decide⟩
  · intro _ _ _
    decide

end PlanSet

def Schema.twice : Schema where
  config := {}
  layer := none
  constructors := [
    ⟨.constructor, 2, ⟨[], "twice"⟩,
      [⟨"flags", .primitive .flags⟩, ⟨"a", .flag .lowest (.primitive .int)⟩,
        ⟨"flags", .primitive .flags⟩], .named ⟨[], "Twice"⟩ false⟩]
  methods := []

namespace PlanSet

def twice : PlanSet :=
  (compile [.twice] {}).toOption.getD default

/-- The first of two flags words of one name does not tell of the field between them, which is
written all the same. -/
theorem written_without_bit :
    let d := twice.declarations.getD 0 default
    let a := d.layout.fields.getD 1 default
    compile [.twice] {} = .ok twice ∧ d ∈ twice.declarations ∧
      d.layout.fields = d.layout.fields.take 1 ++ a :: d.layout.fields.drop 2 ∧
      (d.layout.fields.take 1).map (·.isWord "flags") = [true] ∧
      a.flag? = some ⟨"flags", 0⟩ ∧ a.isWritten [("a", .int 7)] ∧
      twice.encode (.object 2 [("a", .int 7)]) =
        .ok (Wire.uint32 2 ++ (Wire.uint32 0 ++ (Wire.int32 7 ++ Wire.uint32 0))) ∧
      (0 : UInt32).toNat.testBit 0 = false := by
  have hencode : twice.encode (.object 2 [("a", .int 7)]) =
      .ok (Wire.uint32 2 ++ (Wire.uint32 0 ++ (Wire.int32 7 ++ Wire.uint32 0))) := by
    cbv
  exact ⟨by rfl, by decide +kernel, by rfl, by rfl, by rfl, by rfl, hencode, by decide⟩

end PlanSet

end TypeLang
