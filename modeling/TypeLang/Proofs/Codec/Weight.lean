import TypeLang.Proofs.Codec.RoundTrip.Values
import TypeLang.Proofs.Wire.Spanning

/-!
# Fields without bytes

Most of what is read takes bytes. What does not is the value of a bit, and an object without an
identifier all of whose fields are like that (`Weightless`). In front of a field whose bit tells
whether it is there, the word of that bit has been read.

A declaration `Opens` another one if an object of the latter is read at the very place where one of
the former is. Going around in a circle this way, reading takes no byte and has no end
(`not_settled_of_cycle`).
-/

namespace TypeLang

open Relation (TransGen ReflTransGen)
open Wire (Cursor Yields)
open Decoding (wire Forward Settled)

theorem Wire.payloadSize_pos (n : Nat) : 0 < payloadSize n := by
  unfold payloadSize headerSize
  split <;> omega

theorem JsonValue.length_encode_pos (j : JsonValue) : 0 < j.encode.length := by
  rw [length_encode]
  cases j <;> simp only [encodedSize] <;> omega

theorem TypeExpr.erased_of_flag?_eq_none {t : TypeExpr} (h : t.flag? = none) : t.erased = t := by
  cases t with
  | flag => cases h
  | _ => rfl

theorem Layout.flag?_eq_none_of_front {l : Layout} (hplanned : l.IsPlanned) {f : FieldPlan}
    {front back : List FieldPlan} (hsplit : l.fields = front ++ f :: back)
    (hfront : ∀ g ∈ front, g.valueType ≠ .primitive .flags) : f.flag? = none := by
  cases hflag : f.flag? with
  | none => rfl
  | some flag =>
      obtain ⟨g, hg, hword⟩ := exists_word hplanned hsplit hflag
      simp only [FieldPlan.isWord, TypeExpr.isFlagsWord, Bool.and_eq_true, decide_eq_true_iff]
        at hword
      exact absurd hword.1 (hfront g hg)

namespace Decoding

variable {α β : Type} {read : Decoding α} {next : α → Decoding β} {c : Cursor}

theorem yields_pos_of_forward (hread : Yields read fun _ taken => 0 < taken)
    (hnext : ∀ x, Forward (next x)) : Yields (read >>= next) fun _ taken => 0 < taken :=
  hread.bind fun x _ hpos => (hnext x).mono fun _ _ _ => Nat.add_pos_left hpos _

theorem not_settled_bind (h : ¬Settled (read c)) : ¬Settled ((read >>= next) c) := by
  refine fun hbind => h fun name c' herror => hbind name c' ?_
  show EStateM.bind read next c = _
  rw [EStateM.bind, herror]

def Idles (read : Decoding α) (c : Cursor) : Prop :=
  ¬Settled (read c) ∨ ∃ x, read c = .ok x c

theorem Idles.bind_pure {g : α → β} (h : Idles read c) : Idles (do return g (← read)) c := by
  rcases h with h | ⟨x, hx⟩
  · exact .inl (not_settled_bind h)
  · exact .inr ⟨g x, Wire.bind_of_eq_ok hx⟩

end Decoding

open Decoding (Idles not_settled_bind)

namespace PlanSet

/-- Every object of `d` holds in the field `f` one of `e`, without its identifier. -/
structure Embeds (p : PlanSet) (d : DeclarationPlan) (f : FieldPlan) (e : DeclarationPlan) :
    Prop where
  flag : f.flag? = none
  declared : ∃ name, f.valueType = .named name true ∧ p.bare d.schemaPrefix name = .ok e

inductive Weightless (p : PlanSet) : DeclarationPlan → FieldPlan → Prop
  | bit {d : DeclarationPlan} {f : FieldPlan} (kind : f.kind = .trueBit) : Weightless p d f
  | embedded {d e : DeclarationPlan} {f : FieldPlan} (embeds : p.Embeds d f e)
      (each : ∀ g ∈ e.layout.fields, Weightless p e g) : Weightless p d f

/-- Where an object of `d` is read, one of `e` is read before any byte is. -/
def Opens (p : PlanSet) (d e : DeclarationPlan) : Prop :=
  ∃ front f back, d.layout.fields = front ++ f :: back ∧ (∀ g ∈ front, p.Weightless d g) ∧
    p.Embeds d f e

variable {p : PlanSet} {d e : DeclarationPlan} {f : FieldPlan}

theorem Embeds.mem (h : p.Embeds d f e) : e ∈ p.declarations := by
  obtain ⟨_, -, hbare⟩ := h.declared
  exact mem_of_bare hbare

theorem Opens.mem (h : p.Opens d e) : e ∈ p.declarations := by
  obtain ⟨_, _, _, -, -, hembeds⟩ := h
  exact hembeds.mem

theorem Embeds.kind (h : p.Embeds d f e) (htreatment : f.Treatment) :
    (∃ size, f.kind = .fixed size) ∨ f.kind = .dynamic := by
  obtain ⟨name, htype, -⟩ := h.declared
  exact htreatment.kind_of_value (by rw [htype]; nofun) (by rw [htype]; nofun)

theorem Weightless.type_ne (h : p.Weightless d f) (htreatment : f.Treatment) :
    f.valueType ≠ .primitive .flags := by
  cases h with
  | bit kind =>
      rw [htreatment.type_of_bit kind]
      nofun
  | embedded embeds =>
      obtain ⟨name, htype, -⟩ := embeds.declared
      rw [htype]
      nofun

/-! ## Bytes taken -/

section

variable {generic : Decoding Value} {body : DeclarationPlan → Decoding Value}
  (hgeneric : Yields generic fun _ taken => 0 < taken)
  (hbody : ∀ e ∈ p.declarations, Yields (body e) fun _ taken =>
    taken = 0 → ∀ g ∈ e.layout.fields, p.Weightless e g)

include hgeneric in
theorem readPrimitive_yields_pos {kind : Primitive} (hkind : kind ≠ .trueLiteral) :
    Yields (readPrimitive generic kind) fun _ taken => 0 < taken := by
  cases kind with
  | trueLiteral => exact absurd rfl hkind
  | object => exact hgeneric
  | int => exact (Decoding.wire_yields Wire.Read.int32_yields).map fun _ _ h => by omega
  | long => exact (Decoding.wire_yields Wire.Read.int64_yields).map fun _ _ h => by omega
  | double => exact (Decoding.wire_yields Wire.Read.uint64_yields).map fun _ _ h => by omega
  | bool => exact (Decoding.wire_yields Wire.Read.bool_yields).map fun _ _ h => by omega
  | bytes =>
      refine (Decoding.wire_yields Wire.Read.payload_yields).map fun _ _ h => ?_
      exact (Wire.payloadSize_pos _).trans_le h.2
  | string =>
      refine (Decoding.wire_yields Wire.Read.string_yields).map fun _ _ h => ?_
      exact (Wire.payloadSize_pos _).trans_le h.2
  | int128 => exact (Decoding.wire_yields (Wire.Read.raw_yields 16)).map fun _ _ h => by omega
  | int256 => exact (Decoding.wire_yields (Wire.Read.raw_yields 32)).map fun _ _ h => by omega
  | json =>
      refine (Decoding.wire_yields JsonValue.read_yields).map fun j _ h => ?_
      exact j.length_encode_pos.trans_le h.2
  | flags => exact (Decoding.wire_yields Wire.Read.int32_yields).map fun _ _ h => by omega

include hgeneric hbody

/-- Without a flag, what takes no bytes is a bit or an object without an identifier. -/
theorem readTyped_yields_weight (site : Site) {type : TypeExpr} (hflag : type.flag? = none)
    (hbit : type ≠ .primitive .trueLiteral) :
    Yields (readTyped p body generic site type) fun _ taken => taken = 0 →
      ∃ name e, type = .named name true ∧ p.bare site.schemaPrefix name = .ok e ∧
        ∀ g ∈ e.layout.fields, p.Weightless e g := by
  have hforward (type : TypeExpr) : Forward (readTyped p body generic site type) :=
    readTyped_forward (fun e he => .of_yields (hbody e he)) (.of_yields hgeneric) site type
  cases type with
  | primitive kind =>
      refine (readPrimitive_yields_pos hgeneric fun heq => hbit (by rw [heq])).mono ?_
      intro _ _ hpos hzero
      omega
  | flag => cases hflag
  | var => exact hgeneric.mono fun _ _ hpos hzero => by omega
  | vector inner boxed =>
      rw [readTyped_vector]
      refine Yields.bind (Decoding.forward_vectorMark boxed) fun _ _ _ => ?_
      apply (Decoding.wire_yields Wire.Read.count_yields).bind
      rintro n _ ⟨-, rfl⟩
      exact ((hforward inner).items n).bind_pure fun _ _ _ hzero => by omega
  | named name bare =>
      cases bare with
      | true =>
          apply (Decoding.ofExcept_yields _).bind
          rintro e _ ⟨he, rfl⟩
          refine (hbody e (mem_of_bare he)).mono fun _ _ hweight hzero => ?_
          exact ⟨name, e, rfl, he, hweight (by omega)⟩
      | false =>
          apply (Decoding.wire_yields Wire.Read.uint32_yields).bind
          rintro id _ rfl
          have hbehind : Forward (do body (← ofExcept (p.typed site name id))) := by
            apply Yields.bind (Decoding.ofExcept_yields _)
            rintro d _ ⟨hd, -⟩
            exact Forward.of_yields (hbody d (mem_of_dispatched (dispatched_of_typed hd)))
          exact hbehind.mono fun _ _ _ hzero => by omega

end

/-- Fields that take no bytes are no flags words, and those without a flag are what takes none. -/
theorem readFields_yields_weight {read : FieldPlan → Decoding Value} {todo : List FieldPlan}
    (htreatment : ∀ f ∈ todo, f.Treatment)
    (hread : ∀ f ∈ todo, Yields (read f) fun _ taken =>
      taken = 0 → f.flag? = none → f.valueType ≠ .primitive .trueLiteral → p.Weightless d f)
    (words : List (String × UInt32)) (fields : Fields) :
    Yields (readFields read words fields todo) fun _ taken => taken = 0 →
      ∀ f ∈ todo, f.valueType ≠ .primitive .flags ∧ (f.flag? = none → p.Weightless d f) := by
  induction todo generalizing words fields with
  | nil => exact .pure nofun
  | cons f rest ih =>
      have hrest := ih (fun g hg => htreatment g (List.mem_cons_of_mem _ hg))
        (fun g hg => hread g (List.mem_cons_of_mem _ hg))
      simp only [List.forall_mem_cons]
      cases htreatment f List.mem_cons_self with
      | word _ kind =>
          rw [readFields_word kind]
          apply (Decoding.wire_yields Wire.Read.uint32_yields).bind
          rintro word _ rfl
          exact (hrest _ _).mono fun _ _ _ hzero => by omega
      | bit kind type =>
          rw [readFields_bit kind]
          refine (hrest _ _).mono fun _ _ hweight hzero => ⟨⟨?_, fun _ => .bit kind⟩, hweight hzero⟩
          rw [type]
          nofun
      | value kind word bit =>
          rw [readFields_value kind]
          refine .ite (fun _ => ?_) fun hthere => ?_
          · refine (hread f List.mem_cons_self).bind fun v m hfirst => ?_
            refine (hrest _ _).mono fun _ n hweight hzero => ?_
            exact ⟨⟨word, fun hflag => hfirst (by omega) hflag bit⟩, hweight (by omega)⟩
          · refine (hrest _ _).mono fun _ _ hweight hzero =>
              ⟨⟨word, fun hflag => ?_⟩, hweight hzero⟩
            simp only [isThere, hflag, not_true_eq_false] at hthere

/-- The reader of a field of an object, given how deep the values of fields are read. -/
def fieldReader (p : PlanSet) (depth : Nat) (d : DeclarationPlan) (f : FieldPlan) :
    Decoding Value :=
  readTyped p (readBody p depth) (readGeneric p depth) (d.site f) f.valueType

structure DepthWeighs (p : PlanSet) (depth : Nat) : Prop where
  generic : Yields (readGeneric p depth) fun _ taken => 0 < taken
  body : ∀ d ∈ p.declarations, Yields (readBody p depth d) fun _ taken =>
    taken = 0 → ∀ f ∈ d.layout.fields, p.Weightless d f

theorem fieldReader_yields_weight {depth : Nat} (h : p.DepthWeighs depth) (d : DeclarationPlan)
    (f : FieldPlan) :
    Yields (p.fieldReader depth d f) fun _ taken =>
      taken = 0 → f.flag? = none → f.valueType ≠ .primitive .trueLiteral → p.Weightless d f := by
  by_cases hfield : f.flag? = none ∧ f.valueType ≠ .primitive .trueLiteral
  · obtain ⟨hflag, hbit⟩ := hfield
    have htype : f.valueType.flag? = none := by
      rw [FieldPlan.valueType, TypeExpr.erased_of_flag?_eq_none hflag]
      exact hflag
    apply (readTyped_yields_weight h.generic h.body _ htype hbit).mono
    intro _ _ hweight hzero _ _
    obtain ⟨name, e, hname, hbare, heach⟩ := hweight hzero
    exact .embedded ⟨hflag, name, hname, hbare⟩ heach
  · have hforward : Forward (p.fieldReader depth d f) :=
      readTyped_forward (fun e he => .of_yields (h.body e he)) (.of_yields h.generic) _ _
    exact hforward.mono fun _ _ _ _ hflag hbit => absurd ⟨hflag, hbit⟩ hfield

theorem readGeneric_succ_yields_pos {depth : Nat} (h : p.DepthWeighs depth) :
    Yields (readGeneric p (depth + 1)) fun _ taken => 0 < taken := by
  have hitems {read : Decoding Value} (hread : Forward read) (n : Nat) :
      Forward (do return Value.vector (← Wire.Read.items read n)) :=
    Forward.bind (hread.items n) fun _ => .pure trivial
  have hbody : ∀ d ∈ p.declarations, Forward (readBody p depth d) :=
    fun d hd => .of_yields (h.body d hd)
  rw [readGeneric]
  apply (Decoding.wire_yields Wire.Read.peekUInt32_yields).bind
  rintro _ _ rfl
  simp only [Nat.zero_add]
  refine .ite (fun _ => ?_) fun _ => .ite (fun _ => ?_) fun _ => .ite (fun _ => ?_) fun _ => ?_
  · exact (Decoding.wire_yields Wire.Read.bool_yields).bind_pure fun _ _ _ => by omega
  · have hskip : Yields (wire (Wire.Read.skip 4)) fun _ taken => 0 < taken :=
      (Decoding.wire_yields (Wire.Read.skip_yields 4)).mono fun _ _ _ => by omega
    refine Decoding.yields_pos_of_forward hskip fun _ => ?_
    refine .bind (Decoding.forward_wire Wire.Read.count_yields) fun n => ?_
    refine .bind (.of_yields Decoding.get_yields) fun _ => ?_
    refine .ite (fun _ => hitems Decoding.forward_long n) fun _ => ?_
    exact .ite (fun _ => hitems Decoding.forward_int n) fun _ => hitems (.of_yields h.generic) n
  · exact (Decoding.wire_yields JsonValue.read_yields).bind_pure
      fun j _ hj => j.length_encode_pos.trans_le hj.2
  · have huint32 : Yields (wire Wire.Read.uint32) fun _ taken => 0 < taken :=
      (Decoding.wire_yields Wire.Read.uint32_yields).mono fun _ _ _ => by omega
    refine Decoding.yields_pos_of_forward huint32 fun id => ?_
    apply Yields.bind (Decoding.ofExcept_yields _)
    rintro d _ ⟨hd, -⟩
    exact hbody d (mem_of_dispatched hd)

section

variable {schemas : List Schema} {capabilities : Capabilities}
  (hp : compile schemas capabilities = .ok p)

include hp

theorem readBody_succ_yields_weight {depth : Nat} (h : p.DepthWeighs depth)
    (hd : d ∈ p.declarations) :
    Yields (readBody p (depth + 1) d) fun _ taken =>
      taken = 0 → ∀ f ∈ d.layout.fields, p.Weightless d f := by
  have hplanned := planned_of_mem hp hd
  rw [readBody_succ]
  refine (readFields_yields_weight (fun f hf => hplanned.treatment hf)
    (fun f _ => fieldReader_yields_weight h d f) [] []).bind_pure fun _ _ hweight hzero f hf => ?_
  obtain ⟨front, back, hsplit⟩ := List.append_of_mem hf
  refine (hweight hzero f hf).2 (Layout.flag?_eq_none_of_front hplanned hsplit fun g hg => ?_)
  exact (hweight hzero g (hsplit ▸ List.mem_append_left _ hg)).1

theorem depthWeighs (depth : Nat) : p.DepthWeighs depth := by
  induction depth with
  | zero =>
      constructor
      · rw [readGeneric]
        exact .throw _
      · intro d _
        rw [readBody]
        exact .throw _
  | succ depth ih =>
      exact ⟨readGeneric_succ_yields_pos ih, fun d hd => readBody_succ_yields_weight hp ih hd⟩

end

/-! ## Going around in a circle -/

def IdleField (read : FieldPlan → Decoding Value) (c : Cursor) (f : FieldPlan) : Prop :=
  f.kind = .trueBit ∨
    ((∃ size, f.kind = .fixed size) ∨ f.kind = .dynamic) ∧ f.flag? = none ∧ Idles (read f) c

/-- Behind idle fields things are as at the start, unless the depth has been too small before. So
what comes of all fields is what comes of the others from there, if it is also what comes of a depth
that is too small. -/
theorem readFields_append_of_idle {read : FieldPlan → Decoding Value} {c : Cursor}
    {words : List (String × UInt32)} {front todo : List FieldPlan}
    (hfront : ∀ f ∈ front, IdleField read c f)
    {ends : EStateM.Result CodecError Cursor Fields → Prop}
    (hends : ∀ result, ¬Settled result → ends result)
    (htodo : ∀ fields, ends (readFields read words fields todo c)) (fields : Fields) :
    ends (readFields read words fields (front ++ todo) c) := by
  induction front generalizing fields with
  | nil => exact htodo fields
  | cons f front ih =>
      obtain ⟨hf, hfront⟩ := List.forall_mem_cons.mp hfront
      rw [List.cons_append]
      rcases hf with hbit | ⟨hvalue, hflag, hidle⟩
      · rw [readFields_bit hbit]
        exact ih hfront _
      · have hthere : isThere words f = true := by
          rw [isThere, hflag]
        rw [readFields_value hvalue, if_pos hthere]
        rcases hidle with hunsettled | ⟨v, hv⟩
        · exact hends _ (not_settled_bind hunsettled)
        · rw [Wire.bind_of_eq_ok hv]
          exact ih hfront _

theorem Embeds.fieldReader_eq (h : p.Embeds d f e) (depth : Nat) :
    p.fieldReader depth d f = readBody p depth e := by
  obtain ⟨name, htype, hbare⟩ := h.declared
  rw [fieldReader, htype, readTyped]
  exact bind_ofExcept hbare _

section

variable {schemas : List Schema} {capabilities : Capabilities}
  (hp : compile schemas capabilities = .ok p)

include hp

/-- How many fields without bytes are one in the other does not matter: a depth that is too small
for them is none that comes to an end. -/
theorem Weightless.idleField (h : p.Weightless d f) (hf : f.Treatment) (depth : Nat) (c : Cursor) :
    IdleField (p.fieldReader depth d) c f := by
  induction h generalizing depth with
  | bit kind => exact .inl kind
  | @embedded d e f embeds each ih =>
      refine .inr ⟨embeds.kind hf, embeds.flag, ?_⟩
      rw [embeds.fieldReader_eq]
      cases depth with
      | zero =>
          rw [readBody]
          exact .inl fun hsettled => hsettled _ _ rfl
      | succ depth =>
          have hidle : ∀ g ∈ e.layout.fields, IdleField (p.fieldReader depth e) c g := fun g hg =>
            ih g hg ((planned_of_mem hp embeds.mem).treatment hg) depth
          rw [readBody_succ]
          refine Idles.bind_pure ?_
          have hall := @readFields_append_of_idle _ c [] _ [] hidle
            (fun result => ¬Settled result ∨ ∃ x, result = .ok x c) (fun _ => .inl)
            (fun fields => .inr ⟨fields, rfl⟩) []
          rw [List.append_nil] at hall
          exact hall

/-- If the first object that is read in an object of `d` is again one of `d`, however far down,
there is no end. -/
theorem not_settled_of_cycle (hcycle : TransGen p.Opens d d) (depth : Nat) (c : Cursor) :
    ¬Settled (readBody p depth d c) := by
  induction depth generalizing d with
  | zero =>
      rw [readBody]
      exact fun hsettled => hsettled _ _ rfl
  | succ depth ih =>
      obtain ⟨e, hopens, hback⟩ := TransGen.head'_iff.mp hcycle
      have hd : d ∈ p.declarations := by
        obtain ⟨_, -, hlast⟩ := TransGen.tail'_iff.mp hcycle
        exact hlast.mem
      -- The circle, gone around from the next declaration on.
      have hagain : ¬Settled (readBody p depth e c) := ih (.tail' hback hopens)
      obtain ⟨front, f, back, hsplit, hfront, hembeds⟩ := hopens
      have htreatment {g : FieldPlan} (hg : g ∈ front ++ f :: back) : g.Treatment :=
        (planned_of_mem hp hd).treatment (hsplit ▸ hg)
      have hidle : ∀ g ∈ front, IdleField (p.fieldReader depth d) c g := fun g hg =>
        (hfront g hg).idleField hp (htreatment (List.mem_append_left _ hg)) depth c
      have hf := hembeds.kind (htreatment (List.mem_append_right _ List.mem_cons_self))
      have hthere (words : List (String × UInt32)) : isThere words f = true := by
        rw [isThere, hembeds.flag]
      rw [readBody_succ, hsplit]
      refine not_settled_bind (readFields_append_of_idle hidle (fun _ h => h) (fun fields => ?_) [])
      rw [readFields_value hf, if_pos (hthere _)]
      refine not_settled_bind ?_
      rw [hembeds.fieldReader_eq]
      exact hagain

end

end PlanSet

end TypeLang
