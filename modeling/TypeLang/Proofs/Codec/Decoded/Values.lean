import TypeLang.Proofs.Codec.Decoded.Fields
import TypeLang.Proofs.Schema.Parsed

/-!
# Values as they are read

`Decoded p slot v taken` is what holds of every value that a reader gives, whatever the bytes: its
fields are arranged as declared, and if it has no vector where no type is declared, it is canonical,
and the encoding of it takes no more than the bytes that were taken.
-/

namespace TypeLang

open Wire (Yields)
open Decoding (wire)

namespace PlanSet

variable {p : PlanSet}

/-! ## Objects -/

/-- What is read in a slot is arranged, and if it has no vector where no type is declared, it is
canonical and takes no more bytes when it is written. -/
structure Decoded (p : PlanSet) (slot : Slot) (v : Value) (taken : Nat) : Prop where
  arranged : p.Arranged v
  canonical : ¬p.GenericVector slot v → p.Canonical slot v
  length : ¬p.GenericVector slot v → (slot.write p v).bytes.length ≤ taken

section

variable {schemas : List Schema} {capabilities : Capabilities}
  (hp : compile schemas capabilities = .ok p) {d : DeclarationPlan} (hd : d ∈ p.declarations)
  (hdistinct : d.layout.Distinct) {words : List (String × UInt32)} {out : Fields}

include hp hd hdistinct

theorem isPresent_eq_isThere {f : FieldPlan} (hf : f ∈ d.layout.fields)
    {good : FieldPlan → Value → Nat → Prop} (hentry : EntryRead good words f (out.get? f.name))
    (hword : f.valueType ≠ .primitive .flags) :
    d.layout.isPresent out f.name = isThere words f := by
  generalize hget : out.get? f.name = entry at hentry
  have hvalue (hbit : f.valueType ≠ .primitive .trueLiteral) :
      d.layout.isPresent out f.name = entry.isSome := by
    have hkind := ((planned_of_mem hp hd).treatment hf).kind_ne_bit hbit
    rw [hdistinct.isPresent_value hf hkind, Fields.contains, hget]
  cases hentry with
  | word type => exact absurd type hword
  | bit kind =>
      rw [Bool.eq_iff_iff, hdistinct.isPresent_bit hf kind, hget, Option.some.injEq,
        Value.bool.injEq]
  | value _ bit there => rw [hvalue bit, there]; rfl
  | absent _ bit there => rw [hvalue bit, there]; rfl

theorem admits_of_entries {good : FieldPlan → Value → Nat → Prop}
    (hkeys : (out.map (·.1)).Sublist (d.layout.fields.map (·.name)))
    (hentries : ∀ f ∈ d.layout.fields, EntryRead good words f (out.get? f.name)) :
    d.layout.Admits out where
  distinct := hkeys.nodup hdistinct
  declared := by
    intro name hname
    obtain ⟨f, hf, rfl⟩ := List.mem_map.mp (hkeys.subset hname)
    refine ⟨f, hf, rfl, fun htype => ?_⟩
    have hentry := hentries f hf
    generalize hget : out.get? f.name = entry at hentry
    cases hentry with
    | word => exact Association.lookup_eq_none_iff_notMem.mp hget hname
    | bit kind =>
        rw [((planned_of_mem hp hd).treatment hf).type_of_bit kind] at htype
        cases htype
    | value word => exact word htype
    | absent word => exact word htype
  required := by
    intro f hf hflag htype
    have hthere : isThere words f = true := by
      rw [isThere, hflag]
    have hentry := hentries f hf
    unfold Fields.contains
    generalize out.get? f.name = entry at hentry
    cases hentry with
    | word type => exact absurd type htype
    | bit => rfl
    | value => rfl
    | absent _ _ there => rw [hthere] at there; cases there
  bits := by
    intro f hf _ htype
    have hentry := hentries f hf
    generalize out.get? f.name = entry at hentry
    cases hentry with
    | word type => rw [htype] at type; cases type
    | bit => exact ⟨_, rfl⟩
    | value _ bit => exact absurd htype bit
    | absent _ bit => exact absurd htype bit
  shared := by
    intro f hf g hg _ hsame hfword hgword
    rw [isPresent_eq_isThere hp hd hdistinct hf (hentries f hf) hfword,
      isPresent_eq_isThere hp hd hdistinct hg (hentries g hg) hgword, isThere, isThere, hsame]

theorem decoded_body {taken : Nat}
    (h : FieldsRead (fun f => p.Decoded (.typed (d.site f) f.valueType)) [] d.layout.fields out
      taken) : p.Decoded (.body d) (.object d.id out) taken := by
  have hplanned := planned_of_mem hp hd
  have hnames : (d.layout.fields.map (·.name)).Nodup := hdistinct
  obtain ⟨final, -, hentries⟩ := h.entries hnames (wordsInFront_of_planned hplanned hdistinct)
  have hvalue {f : FieldPlan} (hf : f ∈ d.layout.fields) {v : Value}
      (hget : out.get? f.name = some v) : p.Arranged v ∧
        (¬p.GenericVector (.body d) (.object d.id out) → ¬f.IsBit →
          p.Canonical (.typed (d.site f) f.valueType) v) := by
    have hentry := hentries f hf
    rw [hget] at hentry
    cases hentry with
    | bit kind =>
        refine ⟨.bool _, fun _ hbit => ?_⟩
        have htype := (hplanned.treatment hf).type_of_bit kind
        have hflag : f.flag? = none := by
          cases hflag : f.flag? with
          | none => rfl
          | some flag => exact absurd ⟨by rw [hflag]; rfl, htype⟩ hbit
        rw [htype, isThere, hflag]
        exact .primitive rfl
    | value _ _ _ isGood =>
        refine ⟨isGood.arranged, fun hno _ => isGood.canonical fun hvector => hno ?_⟩
        exact .field hf hget hvector
  refine ⟨?_, fun hno => ?_, fun hno => ?_⟩
  · refine .object hd h.keys fun name v hget => ?_
    obtain ⟨f, hf, rfl⟩ := List.mem_map.mp (h.keys.subset (Fields.mem_keys_of_get? hget))
    exact (hvalue hf hget).1
  · refine .body hd (admits_of_entries hp hd hdistinct h.keys hentries) ?_
    exact fun f hf hbit v hget => (hvalue hf hget).2 hno hbit
  · apply h.length_writeFields_le hnames (fun f hf => hplanned.treatment hf) (fun _ _ => rfl)
    intro f hf v size hget hgood
    exact hgood.length fun hvector => hno (.field hf hget hvector)

end

/-! ## Values without parts -/

theorem arranged_of_admits {kind : Primitive} {v : Value} (h : kind.Admits v) : p.Arranged v := by
  unfold Primitive.Admits at h
  split at h
  case h_11 => exact h.elim
  all_goals constructor

theorem Decoded.primitive {site : Site} {kind : Primitive} {v : Value} {taken : Nat}
    (hadmits : kind.Admits v) (hlength : (writePrimitive site kind v).bytes.length ≤ taken) :
    p.Decoded (.typed site (.primitive kind)) v taken := by
  refine ⟨arranged_of_admits hadmits, fun _ => .primitive hadmits, fun _ => ?_⟩
  have hkind := (writePrimitive_takes hadmits site).1
  rw [Slot.write, writeTyped_primitive hkind]
  exact hlength

theorem length_writePayload {site : Site} {payload : List UInt8}
    (h : payload.length ≤ Wire.maxPayload) :
    (writePayload site payload).bytes.length = Wire.payloadSize payload.length := by
  have hwrite : writePayload site payload = .ofBytes (Wire.payload payload) :=
    writePayload_eq_ofBytes.mpr ⟨h, rfl⟩
  rw [hwrite]
  exact Wire.length_payload payload

theorem readPrimitive_yields (generic : Decoding Value) {kind : Primitive} (site : Site)
    (hobject : kind ≠ .object) (hword : kind ≠ .flags) :
    Yields (readPrimitive generic kind) (p.Decoded (.typed site (.primitive kind))) := by
  cases kind with
  | flags => exact absurd rfl hword
  | object => exact absurd rfl hobject
  | trueLiteral => exact .pure (.primitive rfl (Nat.le_refl 0))
  | int =>
      apply (Decoding.wire_yields Wire.Read.int32_yields).map
      rintro n _ rfl
      exact .primitive trivial (Nat.le_refl 4)
  | long =>
      apply (Decoding.wire_yields Wire.Read.int64_yields).map
      rintro n _ rfl
      exact .primitive trivial (Nat.le_refl 8)
  | double =>
      apply (Decoding.wire_yields Wire.Read.uint64_yields).map
      rintro bits _ rfl
      exact .primitive trivial (Nat.le_refl 8)
  | bool =>
      apply (Decoding.wire_yields Wire.Read.bool_yields).map
      rintro b _ rfl
      exact .primitive trivial (Nat.le_refl 4)
  | bytes =>
      apply (Decoding.wire_yields Wire.Read.payload_yields).map
      rintro payload taken ⟨hfits, hsize⟩
      refine .primitive hfits ?_
      rw [writePrimitive, length_writePayload hfits]
      exact hsize
  | string =>
      apply (Decoding.wire_yields Wire.Read.string_yields).map
      rintro text taken ⟨hfits, hsize⟩
      refine .primitive hfits ?_
      rw [← Text.length_toUtf8] at hfits hsize
      rw [writePrimitive, length_writePayload hfits]
      exact hsize
  | int128 =>
      apply (Decoding.wire_yields (Wire.Read.raw_yields 16)).map
      rintro v _ rfl
      exact .primitive trivial v.length_toList.le
  | int256 =>
      apply (Decoding.wire_yields (Wire.Read.raw_yields 32)).map
      rintro v _ rfl
      exact .primitive trivial v.length_toList.le
  | json =>
      apply (Decoding.wire_yields JsonValue.read_yields).map
      rintro j taken ⟨hfits, hsize⟩
      exact .primitive hfits hsize

/-! ## Typed values -/

namespace Decoded

variable {site : Site} {v : Value} {d : DeclarationPlan} {fields : Fields} {taken : Nat}

theorem anyObject (h : p.Decoded (.generic site) v taken) :
    p.Decoded (.typed site (.primitive .object)) v taken := by
  refine ⟨h.arranged, fun hno => ?_, fun hno => ?_⟩
  · exact .anyObject (h.canonical fun hvector => hno (.anyObject hvector))
  · rw [Slot.write, writeTyped]
    exact h.length fun hvector => hno (.anyObject hvector)

theorem var (h : p.Decoded (.generic site) v taken) (name : String) :
    p.Decoded (.typed site (.var name)) v taken := by
  have hcanonical (hno : ¬p.GenericVector (.typed site (.var name)) v) :=
    h.canonical fun hvector => hno (.var hvector)
  refine ⟨h.arranged, fun hno => .var (hcanonical hno), fun hno => ?_⟩
  have htells : v.isSelfDescribing := by
    cases hcanonical hno <;> rfl
  rw [Slot.write, writeTyped, if_pos htells]
  exact h.length fun hvector => hno (.var hvector)

theorem bare {name : QualifiedName} (hd : p.bare site.schemaPrefix name = .ok d)
    (h : p.Decoded (.body d) (.object d.id fields) taken) :
    p.Decoded (.typed site (.named name true)) (.object d.id fields) taken := by
  refine ⟨h.arranged, fun hno => ?_, fun hno => ?_⟩
  · exact .bare hd (h.canonical fun hvector => hno (.bare hd hvector))
  · rw [Slot.write, writeTyped, hd]
    exact h.length fun hvector => hno (.bare hd hvector)

private theorem length_behind_id
    (hlength : ((Slot.body d).write p (.object d.id fields)).bytes.length ≤ taken) :
    (Output.ofBytes (Wire.uint32 d.id) ++ p.writeFields d fields d.layout.fields).bytes.length ≤
      4 + taken := by
  rw [Output.length_ofBytes_append, Wire.length_uint32]
  exact Nat.add_le_add_left hlength 4

theorem boxed {name : QualifiedName} (hd : p.typed site name d.id = .ok d)
    (h : p.Decoded (.body d) (.object d.id fields) taken) :
    p.Decoded (.typed site (.named name false)) (.object d.id fields) (4 + taken) := by
  refine ⟨h.arranged, fun hno => ?_, fun hno => ?_⟩
  · exact .boxed hd (h.canonical fun hvector => hno (.boxed hd hvector))
  · rw [Slot.write, writeTyped, hd]
    exact length_behind_id (h.length fun hvector => hno (.boxed hd hvector))

theorem object (hd : p.dispatched d.id = .ok d) (hjson : d.id ∉ Wire.jsonIds)
    (h : p.Decoded (.body d) (.object d.id fields) taken) :
    p.Decoded (.generic site) (.object d.id fields) (4 + taken) := by
  refine ⟨h.arranged, fun hno => ?_, fun hno => ?_⟩
  · exact .object hd hjson (h.canonical fun hvector => hno (.object hd hvector))
  · rw [Slot.write, writeGeneric, hd]
    exact length_behind_id (h.length fun hvector => hno (.object hd hvector))

theorem length_writeItems_le {inner : TypeExpr} {items : List Value} {sizes : List Nat}
    (h : List.Forall₂ (p.Decoded (.typed site inner)) items sizes)
    (hno : ∀ item ∈ items, ¬p.GenericVector (.typed site inner) item) :
    (p.writeItems site inner items).bytes.length ≤ sizes.sum := by
  induction h with
  | nil =>
      rw [writeItems]
      exact Nat.le_refl 0
  | @cons item size items sizes hitem _ ih =>
      rw [writeItems, List.sum_cons]
      have hfirst := hitem.length (hno item List.mem_cons_self)
      have hrest := ih fun other hmem => hno other (List.mem_cons_of_mem _ hmem)
      exact (Output.length_append_le ..).trans (Nat.add_le_add hfirst hrest)

theorem vector {inner : TypeExpr} {items : List Value} {sizes : List Nat}
    (hlength : items.length < 2 ^ 31) (boxed : Bool)
    (h : List.Forall₂ (p.Decoded (.typed site inner)) items sizes) :
    p.Decoded (.typed site (.vector inner boxed)) (.vector items)
      ((if boxed then 4 else 0) + (4 + sizes.sum)) := by
  have hdecoded (item : Value) (hmem : item ∈ items) :
      ∃ size ∈ sizes, p.Decoded (.typed site inner) item size :=
    exists_mem_of_forall₂ h.flip hmem
  refine ⟨.vector fun item hmem => ?_, fun hno => .vector hlength fun item hmem => ?_,
    fun hno => ?_⟩
  · obtain ⟨size, -, hitem⟩ := hdecoded item hmem
    exact hitem.arranged
  · obtain ⟨size, -, hitem⟩ := hdecoded item hmem
    exact hitem.canonical fun hvector => hno (.item hmem hvector)
  · have hitems := length_writeItems_le h fun item hmem hvector => hno (.item hmem hvector)
    have hheader : (if boxed then Wire.vectorHeader items.length else
        Wire.count items.length).length = (if boxed then 4 else 0) + 4 := by
      cases boxed <;> simp [Wire.vectorHeader, Wire.count]
    rw [Slot.write, writeTyped, Output.length_ofBytes_append, hheader, Nat.add_assoc]
    exact Nat.add_le_add_left (Nat.add_le_add_left hitems 4) _

end Decoded

section

variable {generic : Decoding Value} {body : DeclarationPlan → Decoding Value}
  (hgeneric : ∀ site, Yields generic (p.Decoded (.generic site)))
  (hbody : ∀ d ∈ p.declarations, Yields (body d) fun v taken =>
    ∃ fields, v = .object d.id fields ∧ p.Decoded (.body d) v taken)
  {schemas : List Schema} {capabilities : Capabilities}
  (hp : compile schemas capabilities = .ok p)

include hgeneric hbody hp

theorem readTyped_yields (site : Site) {type : TypeExpr} (hplain : type.Plain) :
    Yields (readTyped p body generic site type) (p.Decoded (.typed site type)) := by
  induction type with
  | primitive kind =>
      by_cases hobject : kind = .object
      · rw [hobject]
        exact (hgeneric site).mono fun _ _ => .anyObject
      · exact readPrimitive_yields generic site hobject hplain
  | flag => exact hplain.elim
  | var name => exact (hgeneric site).mono fun _ _ h => h.var name
  | vector inner boxed ih =>
      have hmark : Yields (if boxed then wire (Wire.Read.id Wire.vectorId) else pure ())
          fun _ taken => taken = if boxed then 4 else 0 := by
        refine .ite (fun hboxed => ?_) fun hboxed => ?_
        · rw [if_pos hboxed]
          exact Decoding.wire_yields (Wire.Read.id_yields _)
        · rw [if_neg hboxed]
          exact .pure rfl
      rw [readTyped_vector]
      apply hmark.bind
      rintro _ _ rfl
      apply (Decoding.wire_yields Wire.Read.count_yields).bind
      rintro n _ ⟨hn, rfl⟩
      apply (Wire.Read.items_yields (ih hplain) n).bind_pure
      rintro items _ ⟨rfl, sizes, hitems, rfl⟩
      exact .vector hn boxed hitems
  | named name bare =>
      cases bare with
      | true =>
          apply (Decoding.ofExcept_yields _).bind
          rintro d _ ⟨hd, rfl⟩
          apply (hbody d (mem_of_bare hd)).mono
          rintro _ taken ⟨fields, rfl, h⟩
          rw [Nat.zero_add]
          exact h.bare hd
      | false =>
          apply (Decoding.wire_yields Wire.Read.uint32_yields).bind
          rintro id _ rfl
          apply (Decoding.ofExcept_yields _).bind
          rintro d _ ⟨hd, rfl⟩
          have hdispatched := dispatched_of_typed hd
          obtain ⟨rfl, -⟩ := id_of_dispatched hp hdispatched
          apply (hbody d (mem_of_dispatched hdispatched)).mono
          rintro _ taken ⟨fields, rfl, h⟩
          rw [Nat.zero_add]
          exact h.boxed hd

end

/-! ## Values that tell their own type -/

namespace Decoded

variable {site : Site}

theorem bool (b : Bool) : p.Decoded (.generic site) (.bool b) 4 := by
  refine ⟨.bool b, fun _ => .bool b, fun _ => ?_⟩
  rw [Slot.write, writeGeneric]
  exact Nat.le_refl 4

theorem json {j : JsonValue} {taken : Nat} (hfits : j.Fits) (hsize : j.encode.length ≤ taken) :
    p.Decoded (.generic site) (.json j) taken := by
  refine ⟨.json j, fun _ => .json hfits, fun _ => ?_⟩
  rw [Slot.write, writeGeneric]
  exact hsize

theorem genericVector {items : List Value} (h : ∀ item ∈ items, p.Arranged item) (taken : Nat) :
    p.Decoded (.generic site) (.vector items) taken :=
  ⟨.vector h, fun hno => (hno (.here items)).elim, fun hno => (hno (.here items)).elim⟩

end Decoded

theorem genericItems_yields {site : Site} {read : Decoding Value} {size : Nat → Nat} (n : Nat)
    (hread : Yields read fun v _ => p.Arranged v) :
    Yields (do return .vector (← Wire.Read.items read n)) fun v taken =>
      p.Decoded (.generic site) v (size taken) := by
  apply (Wire.Read.items_yields hread n).bind_pure
  rintro items taken ⟨-, sizes, hitems, -⟩
  refine .genericVector (fun item hmem => ?_) (size taken)
  obtain ⟨_, -, hitem⟩ := exists_mem_of_forall₂ hitems.flip hmem
  exact hitem

theorem uint32_of_peek {c c' c'' : Wire.Cursor} {id id' : UInt32}
    (hpeek : wire Wire.Read.peekUInt32 c = .ok id c')
    (huint32 : wire Wire.Read.uint32 c = .ok id' c'') : id' = id := by
  unfold wire Wire.Read.peekUInt32 at hpeek
  unfold wire at huint32
  cases hread : Wire.Read.uint32 c with
  | error e c₁ => rw [hread] at huint32; cases huint32
  | ok v c₁ =>
      rw [hread] at hpeek huint32
      cases hpeek
      cases huint32
      rfl

end PlanSet

end TypeLang
