import TypeLang.Proofs.Codec.RoundTrip.Fields

/-!
# Round trip

A canonical value is written, and what is written is read back as the same value, with the fields of
objects in the order of their declarations. The reader is given enough depth first; the theorem
about depth then says that the depth that it is given is enough.
-/

namespace TypeLang

open Wire (Takes)

namespace PlanSet

variable {p : PlanSet}

section

variable {schemas : List Schema} {capabilities : Capabilities}
  (hp : compile schemas capabilities = .ok p)

include hp

theorem roundTrips_object {site : Site} {d : DeclarationPlan} {fields : Fields}
    (hdispatched : p.dispatched d.id = .ok d) (hjson : d.id ∉ Wire.jsonIds)
    (hbody : p.RoundTrips (.body d) (.object d.id fields)) :
    p.RoundTrips (.generic site) (.object d.id fields) := by
  obtain ⟨bytes, w, depth, hwrite, hsame, htakes⟩ := hbody
  rw [Slot.write] at hwrite
  refine ⟨Wire.uint32 d.id ++ bytes, w, depth + 1, ?_, hsame, fun n hn => ?_⟩
  · rw [Slot.write, writeGeneric, hdispatched]
    simp only
    rw [hwrite, Output.ofBytes_append_ofBytes]
  · obtain ⟨n, rfl⟩ : ∃ k, n = k + 1 := ⟨n - 1, by omega⟩
    have hreserved := (id_of_dispatched hp hdispatched).2
    simp only [DispatchTable.reservedIds, List.mem_cons, List.not_mem_nil, or_false,
      not_or] at hreserved
    rw [Slot.read, readGeneric]
    apply peek_takes
    rw [if_neg (by simp [hreserved.1, hreserved.2.1]), if_neg hreserved.2.2,
      if_neg (by simpa using hjson)]
    apply (Decoding.wire_takes (Wire.Read.uint32_takes _)).bind
    rw [bind_ofExcept hdispatched]
    exact htakes n (by omega)

theorem roundTrips_of_canonical (hdistinct : ∀ d ∈ p.declarations, d.layout.Distinct) {slot : Slot}
    {v : Value} (h : p.Canonical slot v) : p.RoundTrips slot v := by
  induction h with
  | @primitive site kind v admits =>
      obtain ⟨hkind, bytes, hwrite, htakes⟩ := writePrimitive_takes admits site
      refine ⟨bytes, v, 0, ?_, .refl v, fun n _ => htakes _⟩
      rw [Slot.write, writeTyped_primitive hkind, hwrite]
  | anyObject _ ih =>
      obtain ⟨bytes, w, depth, hwrite, hsame, htakes⟩ := ih
      refine ⟨bytes, w, depth, ?_, hsame, htakes⟩
      rw [Slot.write, writeTyped]
      exact hwrite
  | @var site name v generic ih =>
      obtain ⟨bytes, w, depth, hwrite, hsame, htakes⟩ := ih
      refine ⟨bytes, w, depth, ?_, hsame, htakes⟩
      have htells : v.isSelfDescribing := by
        cases generic <;> rfl
      rw [Slot.write, writeTyped, if_pos htells]
      exact hwrite
  | flag _ ih =>
      obtain ⟨bytes, w, depth, hwrite, hsame, htakes⟩ := ih
      refine ⟨bytes, w, depth, ?_, hsame, htakes⟩
      rw [Slot.write, writeTyped]
      exact hwrite
  | vector length _ ih => exact roundTrips_vector length ih
  | @boxed site name d fields declared _ ih =>
      obtain ⟨bytes, w, depth, hwrite, hsame, htakes⟩ := ih
      rw [Slot.write] at hwrite
      refine ⟨Wire.uint32 d.id ++ bytes, w, depth, ?_, hsame, fun n hn => ?_⟩
      · rw [Slot.write, writeTyped, declared]
        simp only
        rw [hwrite, Output.ofBytes_append_ofBytes]
      · rw [Slot.read, readTyped]
        apply (Decoding.wire_takes (Wire.Read.uint32_takes _)).bind
        rw [bind_ofExcept declared]
        exact htakes n hn
  | @bare site name d fields declared _ ih =>
      obtain ⟨bytes, w, depth, hwrite, hsame, htakes⟩ := ih
      refine ⟨bytes, w, depth, ?_, hsame, fun n hn => ?_⟩
      · rw [Slot.write, writeTyped, declared]
        exact hwrite
      · rw [Slot.read, readTyped, bind_ofExcept declared]
        exact htakes n hn
  | bool v => exact roundTrips_bool v
  | json fits => exact roundTrips_json fits
  | object dispatched notJson _ ih => exact roundTrips_object hp dispatched notJson ih
  | body member admits values ih =>
      exact roundTrips_body hp member (hdistinct _ member) admits
        fun f hf hbit v hv => ⟨values f hf hbit v hv, ih f hf hbit v hv⟩

end

def place : DeclarationPlan :=
  people.declarations.getD 0 default

theorem canonical_place (x y : Int32) :
    people.Canonical (.body place) (.object 1 [("x", .int x), ("y", .int y)]) := by
  have hplain : ∀ f ∈ place.layout.fields, f.flag? = none := by
    decide
  have hnames : ∀ f ∈ place.layout.fields, f.name = "x" ∨ f.name = "y" := by
    decide
  refine .body (d := place) (by decide +kernel) ⟨?_, ?_, ?_, ?_, ?_⟩ ?_
  · show ["x", "y"].Nodup
    decide
  · show ∀ name ∈ ["x", "y"], _
    decide
  · intro f hf _ _
    rcases hnames f hf with h | h <;> rw [h] <;> rfl
  · intro f hf hgated
    rw [hplain f hf] at hgated
    cases hgated
  · intro f hf _ _ hgated
    rw [hplain f hf] at hgated
    cases hgated
  · intro f hf _ v hv
    have htypes : ∀ f ∈ place.layout.fields, f.valueType = .primitive .int := by
      decide
    rw [htypes f hf]
    rcases hnames f hf with h | h <;> rw [h] at hv <;> cases hv <;> exact .primitive trivial

theorem canonical_person {home : Value}
    (hhome : people.Canonical (.typed ⟨"", "home"⟩ (.named ⟨[], "place"⟩ true)) home) :
    people.Canonical (.body person)
      (.object 2 [("name", .string "ab"), ("home", home), ("away", .bool true)]) := by
  refine .body (d := person) person_mem ⟨?_, ?_, ?_, ?_, ?_⟩ ?_
  · show ["name", "home", "away"].Nodup
    decide
  · show ∀ name ∈ ["name", "home", "away"], _
    decide
  · have hrequired : ∀ f ∈ person.layout.fields, f.flag? = none →
        f.valueType ≠ .primitive .flags → f.name = "home" := by
      decide
    intro f hf hflag hword
    rw [hrequired f hf hflag hword]
    rfl
  · have hbits : ∀ f ∈ person.layout.fields, f.flag?.isSome →
        f.valueType = .primitive .trueLiteral → f.name = "away" := by
      decide
    intro f hf hflag htype
    rw [hbits f hf hflag htype]
    exact ⟨true, rfl⟩
  · have halone : ∀ f ∈ person.layout.fields, ∀ g ∈ person.layout.fields, f.flag?.isSome →
        f.flag? = g.flag? → f = g := by
      decide
    intro f hf g hg hflag hsame _ _
    rw [halone f hf g hg hflag hsame]
  · have hfields : ∀ f ∈ person.layout.fields, (f.name, f.valueType) ∈
        [("flags", .primitive .flags), ("home", .named ⟨[], "place"⟩ true),
          ("name", .primitive .string), ("away", .primitive .trueLiteral)] := by
      decide
    intro f hf _ v hv
    have hfield := hfields f hf
    simp only [List.mem_cons, List.not_mem_nil, or_false, Prod.mk.injEq] at hfield
    have hsite : person.site f = ⟨"", f.name⟩ := rfl
    rcases hfield with ⟨hname, htype⟩ | ⟨hname, htype⟩ | ⟨hname, htype⟩ | ⟨hname, htype⟩ <;>
      rw [hname] at hv <;> rw [hsite, hname, htype] <;> cases hv
    · exact hhome
    · exact .primitive (by decide : "ab".utf8ByteSize ≤ Wire.maxPayload)
    · exact .primitive rfl

section

variable {schemas : List Schema} {capabilities : Capabilities}
  (hp : compile schemas capabilities = .ok p) {bytes : List UInt8} {w : Value} {depth : Nat}
  (htakes : Takes (readGeneric p depth) bytes w)

include hp htakes

theorem decodeFrom_of_takes (position : Nat) (rest : List UInt8) :
    p.decodeFrom ⟨position, bytes ++ rest⟩ = .ok w ⟨position + bytes.length, rest⟩ :=
  decodeFrom_of_read hp _ (htakes position rest)

theorem decode_of_takes : p.decode bytes = .ok w := by
  have hwhole := decodeFrom_of_takes hp htakes 0 []
  rw [List.append_nil] at hwhole
  rw [decode, Decoding.run, Wire.Cursor.ofBytes, hwhole]

end

/-- Encoding a canonical value succeeds. Decoding its bytes, whatever stands behind them, takes
exactly these bytes and gives the value again, up to the order of fields. -/
theorem decode_encode {schemas : List Schema} {capabilities : Capabilities}
    (hp : compile schemas capabilities = .ok p)
    (hnames : ∀ s ∈ schemas, ∀ decl ∈ s.declarations, (decl.params.map (·.name)).Nodup)
    {v : Value} (hv : p.Canonical (.generic .top) v) :
    ∃ bytes w, p.encode v = .ok bytes ∧ p.decode bytes = .ok w ∧ v.Same w ∧
      ∀ position rest, p.decodeFrom ⟨position, bytes ++ rest⟩ =
        .ok w ⟨position + bytes.length, rest⟩ := by
  obtain ⟨bytes, w, depth, hwrite, hsame, htakes⟩ :=
    roundTrips_of_canonical hp (distinct_of_params hp hnames) hv
  have hdepth := htakes depth (Nat.le_refl depth)
  have hencode : p.encode v = .ok bytes := Output.toExcept_eq_ok.mpr hwrite
  exact ⟨bytes, w, hencode, decode_of_takes hp hdepth, hsame, decodeFrom_of_takes hp hdepth⟩

theorem decode_encode_person :
    let v : Value := .object 2
      [("name", .string "ab"), ("home", .object 1 [("x", .int 3), ("y", .int 4)]),
        ("away", .bool true)]
    ∃ bytes w, people.encode v = .ok bytes ∧ people.decode bytes = .ok w ∧ v.Same w := by
  have hbody := canonical_person (.bare (d := place) rfl (canonical_place 3 4))
  have hv : people.Canonical (.generic .top) _ := .object (d := person) rfl (by decide) hbody
  obtain ⟨bytes, w, hencode, hdecode, hsame, -⟩ := decode_encode compile_people (by decide) hv
  exact ⟨bytes, w, hencode, hdecode, hsame⟩

end PlanSet

end TypeLang
