import Mathlib
import TypeLang.Proofs.Codec.Decoded.Values
import TypeLang.Proofs.Codec.RoundTrip

/-!
# What is decoded

Bytes that no encoder need have written are decoded to canonical values, except for vectors where no
type is declared, and the encoding of such a value is no longer than the bytes it was decoded from:
stray bits of flags words are left out, padding becomes zero and headers become short. So what is
decoded can be encoded again, and decoding that gives it once more.
-/

namespace TypeLang

open Wire (Yields)
open Decoding (wire)

namespace PlanSet

variable {p : PlanSet}

/-! ## One level deeper -/

section

variable {schemas : List Schema} {capabilities : Capabilities}
  (hp : compile schemas capabilities = .ok p)

structure DepthDecodes (p : PlanSet) (depth : Nat) : Prop where
  generic : ∀ site, Yields (readGeneric p depth) (p.Decoded (.generic site))
  body : ∀ d ∈ p.declarations, Yields (readBody p depth d) fun v taken =>
    ∃ fields, v = .object d.id fields ∧ p.Decoded (.body d) v taken

include hp

theorem plain_of_mem (hread : ∀ s ∈ schemas, s.IsRead) {d : DeclarationPlan}
    (hd : d ∈ p.declarations) {f : FieldPlan} (hf : f ∈ d.layout.fields)
    (hword : f.valueType ≠ .primitive .flags) : f.valueType.Plain := by
  obtain ⟨s, hs, decl, hdecl, hlayout⟩ := exists_declaration hp hd
  rw [(Layout.ofDeclaration_eq_ok hlayout).2.2.1] at hf
  obtain ⟨q, hq, rfl⟩ := List.mem_map.mp hf
  rcases (hread s hs).wellTyped hdecl q hq with hflags | hplain
  · refine absurd ?_ hword
    show q.type.erased = _
    rw [hflags]
    rfl
  · exact hplain

theorem readBody_succ_yields (hread : ∀ s ∈ schemas, s.IsRead) {depth : Nat}
    (h : p.DepthDecodes depth) {d : DeclarationPlan} (hd : d ∈ p.declarations)
    (hdistinct : d.layout.Distinct) :
    Yields (readBody p (depth + 1) d) fun v taken =>
      ∃ fields, v = .object d.id fields ∧ p.Decoded (.body d) v taken := by
  have htreatment (f : FieldPlan) (hf : f ∈ d.layout.fields) : f.Treatment :=
    (planned_of_mem hp hd).treatment hf
  have hvalue (f : FieldPlan) (hf : f ∈ d.layout.fields)
      (hword : f.valueType ≠ .primitive .flags) :
      Yields (readTyped p (readBody p depth) (readGeneric p depth) (d.site f) f.valueType)
        (p.Decoded (.typed (d.site f) f.valueType)) :=
    readTyped_yields h.generic h.body hp _ (plain_of_mem hp hread hd hf hword)
  have hdone : ∀ name ∈ ([] : Fields).map (·.1), name ∉ d.layout.fields.map (·.name) := by
    intro name hname
    cases hname
  rw [readBody_succ]
  refine (readFields_yields htreatment (fun f hf hword _ => hvalue f hf hword) hdistinct []
    hdone).bind_pure ?_
  rintro out taken ⟨_, rfl, hout⟩
  exact ⟨out, rfl, decoded_body hp hd hdistinct hout⟩

theorem readObject_yields {depth : Nat} (h : p.DepthDecodes depth) (site : Site) {id : UInt32}
    (hjson : id ∉ Wire.jsonIds) :
    Yields (do readBody p depth (← ofExcept (p.dispatched id))) fun v taken =>
      p.Decoded (.generic site) v (4 + taken) := by
  apply (Decoding.ofExcept_yields _).bind
  rintro d _ ⟨hd, rfl⟩
  obtain ⟨rfl, -⟩ := id_of_dispatched hp hd
  apply (h.body d (mem_of_dispatched hd)).mono
  rintro _ taken ⟨fields, rfl, hbody⟩
  rw [Nat.zero_add]
  exact hbody.object hd hjson

theorem readGeneric_succ_yields {depth : Nat} (h : p.DepthDecodes depth) (site : Site) :
    Yields (readGeneric p (depth + 1)) (p.Decoded (.generic site)) := by
  have hlong : Yields (Value.long <$> wire Wire.Read.int64) fun v _ => p.Arranged v :=
    (Decoding.wire_yields Wire.Read.int64_yields).map fun n _ _ => .long n
  have hint : Yields (Value.int <$> wire Wire.Read.int32) fun v _ => p.Arranged v :=
    (Decoding.wire_yields Wire.Read.int32_yields).map fun n _ _ => .int n
  have hany : Yields (readGeneric p depth) fun v _ => p.Arranged v :=
    (h.generic site).mono fun _ _ hdecoded => hdecoded.arranged
  -- The identifier is looked at before it is read, so the cursor has to be kept in sight.
  intro c v c' hread
  rw [readGeneric] at hread
  obtain ⟨id, c₀, hpeek, hrest⟩ := Wire.bind_eq_ok_iff.mp hread
  obtain ⟨_, -, hc, rfl⟩ := Decoding.wire_yields Wire.Read.peekUInt32_yields _ _ _ hpeek
  rw [Wire.Cursor.skip_zero] at hc
  rw [hc] at hrest
  split at hrest
  · refine (?_ : Yields _ (p.Decoded (.generic site))) c v c' hrest
    apply (Decoding.wire_yields Wire.Read.bool_yields).bind_pure
    rintro b _ rfl
    exact .bool b
  split at hrest
  · refine (?_ : Yields _ (p.Decoded (.generic site))) c v c' hrest
    refine (Decoding.wire_yields (Wire.Read.skip_yields 4)).bind fun _ _ _ => ?_
    refine (Decoding.wire_yields Wire.Read.count_yields).bind fun n _ _ => ?_
    refine Decoding.get_yields.bind fun _ _ _ => ?_
    refine .ite (fun _ => genericItems_yields n hlong) fun _ => ?_
    exact .ite (fun _ => genericItems_yields n hint) fun _ => genericItems_yields n hany
  split at hrest
  · refine (?_ : Yields _ (p.Decoded (.generic site))) c v c' hrest
    apply (Decoding.wire_yields JsonValue.read_yields).bind_pure
    rintro j taken ⟨hfits, hsize⟩
    exact .json hfits hsize
  · rename_i hjson
    obtain ⟨id', c₁, huint32, hbehind⟩ := Wire.bind_eq_ok_iff.mp hrest
    obtain rfl := uint32_of_peek hpeek huint32
    obtain ⟨_, hfour, rfl, rfl⟩ := Decoding.wire_yields Wire.Read.uint32_yields _ _ _ huint32
    have hobject := readObject_yields hp h site (show id' ∉ Wire.jsonIds by simpa using hjson)
    obtain ⟨n, hn, rfl, hdecoded⟩ := hobject _ _ _ hbehind
    rw [Wire.Cursor.remaining_skip] at hn
    exact ⟨4 + n, by omega, Wire.Cursor.skip_skip _ 4 n, hdecoded⟩

theorem depthDecodes (hread : ∀ s ∈ schemas, s.IsRead)
    (hdistinct : ∀ d ∈ p.declarations, d.layout.Distinct) (depth : Nat) :
    p.DepthDecodes depth := by
  induction depth with
  | zero =>
      constructor
      · intro site
        rw [readGeneric]
        exact .throw _
      · intro d _
        rw [readBody]
        exact .throw _
  | succ depth ih =>
      constructor
      · exact readGeneric_succ_yields hp ih
      · exact fun d hd => readBody_succ_yields hp hread ih hd (hdistinct d hd)

end

/-! ## What is decoded can be encoded -/

section

variable {schemas : List Schema} {capabilities : Capabilities}
  (hp : compile schemas capabilities = .ok p) (hread : ∀ s ∈ schemas, s.IsRead)
  (hnames : ∀ s ∈ schemas, ∀ decl ∈ s.declarations, (decl.params.map (·.name)).Nodup)

include hp hread hnames

theorem decodeFrom_yields : Yields p.decodeFrom (p.Decoded (.generic .top)) := by
  intro c v c' h
  have hdecodes := depthDecodes hp hread (distinct_of_params hp hnames) (p.maxDepth c.remaining)
  exact hdecodes.generic .top c v c' h

/-- Whatever is decoded, from bytes that no encoder need have written, can be encoded again in no
more bytes than were taken, and decoding these gives it once more. -/
theorem encode_decodeFrom {c c' : Wire.Cursor} {v : Value} (h : p.decodeFrom c = .ok v c')
    (hv : ¬p.GenericVector (.generic .top) v) :
    ∃ bytes taken, taken ≤ c.remaining ∧ c' = c.skip taken ∧ p.encode v = .ok bytes ∧
      bytes.length ≤ taken ∧ p.decode bytes = .ok v := by
  have hdistinct := distinct_of_params hp hnames
  obtain ⟨taken, htaken, hc, hdecoded⟩ := decodeFrom_yields hp hread hnames c v c' h
  obtain ⟨bytes, w, depth, hwrite, hsame, htakes⟩ :=
    roundTrips_of_canonical hp hdistinct (hdecoded.canonical hv)
  have hlength : bytes.length ≤ taken := by
    have hle := hdecoded.length hv
    rw [hwrite] at hle
    exact hle
  have hdepth := htakes depth (Nat.le_refl depth)
  -- What is decoded the second time is arranged too, so that it is not only the same.
  have hagain := decodeFrom_of_takes hp hdepth 0 []
  obtain ⟨_, -, -, hdecoded'⟩ := decodeFrom_yields hp hread hnames _ w _ hagain
  have heq : v = w :=
    eq_of_same_of_arranged hp hdistinct hsame hdecoded.arranged hdecoded'.arranged
  have hencode : p.encode v = .ok bytes := Output.toExcept_eq_ok.mpr hwrite
  refine ⟨bytes, taken, htaken, hc, hencode, hlength, ?_⟩
  rw [heq]
  exact decode_of_takes hp hdepth

end

/-- A bit that no field uses, a long header and padding that is not zero are not written again. -/
theorem encode_decodeFrom_person :
    let c : Wire.Cursor := .ofBytes
      [2, 0, 0, 0, 7, 0, 0, 0, 3, 0, 0, 0, 4, 0, 0, 0, 0xfe, 2, 0, 0, 97, 98, 9, 9]
    let v : Value := .object 2
      [("home", .object 1 [("x", .int 3), ("y", .int 4)]), ("name", .string "ab"),
        ("away", .bool true)]
    people.decodeFrom c = .ok v (c.skip 24) ∧ ¬people.GenericVector (.generic .top) v ∧
      ∃ bytes, people.encode v = .ok bytes ∧ bytes.length ≤ 24 ∧ people.decode bytes = .ok v := by
  intro c v
  have hdecode : people.decodeFrom c = .ok v (c.skip 24) := by
    cbv
  have hno : ¬people.GenericVector (.generic .top) v := by
    intro hvector
    have hhas := hvector.hasVector
    simp only [v] at hhas
    cases hhas with
    | field mem there =>
        simp only [List.mem_cons, List.not_mem_nil, or_false, Prod.mk.injEq] at mem
        rcases mem with ⟨-, rfl⟩ | ⟨-, rfl⟩ | ⟨-, rfl⟩
        · cases there with
          | field mem there =>
              simp only [List.mem_cons, List.not_mem_nil, or_false, Prod.mk.injEq] at mem
              rcases mem with ⟨-, rfl⟩ | ⟨-, rfl⟩ <;> cases there
        · cases there
        · cases there
  obtain ⟨bytes, taken, htaken, -, hencode, hlength, hagain⟩ :=
    encode_decodeFrom compile_people (by simp [Schema.isRead_people]) (by decide) hdecode hno
  exact ⟨hdecode, hno, bytes, hencode, hlength.trans htaken, hagain⟩

end PlanSet

end TypeLang
