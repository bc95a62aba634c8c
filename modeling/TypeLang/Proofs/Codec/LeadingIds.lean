import Mathlib
import TypeLang.Proofs.Codec.Locality
import TypeLang.Proofs.Plan.Dispatch

/-!
# What a leading identifier is taken for

Where no type is declared, the first four bytes tell what follows. Before it asks the dispatch table
the reader looks for the identifiers of truth values, of vectors and of JSON values. The dispatch
table gives no declaration one of the first three, so these never stand in the way of an object. It
does not look out for those of JSON values: an object of a declaration with such an identifier is
written as an object and read as a JSON value (`not_readsObject_mask`). `leadingId_exact` says what
happens to the identifier of any declaration.
-/

namespace TypeLang

open Decoding (wire)

inductive Slot.Untyped : Slot → Prop
  | generic (site : Site) : Untyped (.generic site)
  | var (site : Site) (name : String) : Untyped (.typed site (.var name))
  | anyObject (site : Site) : Untyped (.typed site (.primitive .object))
  | flag {site : Site} {inner : TypeExpr} (flag : Flag) (typed : Untyped (.typed site inner)) :
      Untyped (.typed site (.flag flag inner))

theorem Slot.Untyped.read_eq {p : PlanSet} {slot : Slot} (h : slot.Untyped) (depth : Nat) :
    slot.read p depth = p.readGeneric depth := by
  induction h with
  | generic site => rfl
  | var site name => rfl
  | anyObject site => rfl
  | flag flag typed ih => exact ih

namespace PlanSet

variable {schemas : List Schema} {capabilities : Capabilities} {p : PlanSet} {id : UInt32}
  {d : DeclarationPlan}

/-- Where no type is declared, what starts with the identifier is read as an object of the
declaration. -/
def ReadsObject (p : PlanSet) (id : UInt32) (d : DeclarationPlan) : Prop :=
  ∀ (slot : Slot), slot.Untyped → ∀ depth position rest,
    slot.read p (depth + 1) ⟨position, Wire.uint32 id ++ rest⟩ =
      p.readBody depth d ⟨position + 4, rest⟩

/-- Where no type is declared, what starts with the identifier is read as a JSON value. -/
def ReadsJson (p : PlanSet) (id : UInt32) : Prop :=
  ∀ (slot : Slot), slot.Untyped → ∀ depth position rest,
    slot.read p (depth + 1) ⟨position, Wire.uint32 id ++ rest⟩ =
      (Value.json <$> wire JsonValue.read) ⟨position, Wire.uint32 id ++ rest⟩

/-! ## Branches of the reader -/

/-- A reader that looks at the identifier first goes on by it, from where it stands. -/
theorem peek_bind (next : UInt32 → Decoding Value) (id : UInt32) (position : Nat)
    (rest : List UInt8) :
    (wire Wire.Read.peekUInt32 >>= next) ⟨position, Wire.uint32 id ++ rest⟩ =
      next id ⟨position, Wire.uint32 id ++ rest⟩ :=
  Wire.bind_of_eq_ok (Decoding.peek_of_takes (Wire.Read.uint32_takes id) position rest)

theorem not_bool_of_notMem (h : id ∉ DispatchTable.reservedIds) :
    ¬(id = Wire.boolTrueId ∨ id = Wire.boolFalseId) ∧ id ≠ Wire.vectorId := by
  simp only [DispatchTable.reservedIds, List.mem_cons, List.not_mem_nil, or_false, not_or] at h
  exact ⟨not_or.mpr ⟨h.1, h.2.1⟩, h.2.2⟩

theorem readsObject (hd : p.dispatched id = .ok d) (hreserved : id ∉ DispatchTable.reservedIds)
    (hjson : id ∉ Wire.jsonIds) : p.ReadsObject id d := by
  intro slot hslot depth position rest
  obtain ⟨hbool, hvector⟩ := not_bool_of_notMem hreserved
  have huint32 := Decoding.wire_takes (Wire.Read.uint32_takes id) position rest
  rw [Wire.length_uint32] at huint32
  rw [hslot.read_eq, readGeneric, peek_bind, if_neg hbool, if_neg hvector,
    if_neg (by simpa using hjson), Wire.bind_of_eq_ok huint32, bind_ofExcept hd]

theorem readsJson (hreserved : id ∉ DispatchTable.reservedIds) (hjson : id ∈ Wire.jsonIds) :
    p.ReadsJson id := by
  intro slot hslot depth position rest
  obtain ⟨hbool, hvector⟩ := not_bool_of_notMem hreserved
  rw [hslot.read_eq, readGeneric, peek_bind, if_neg hbool, if_neg hvector,
    if_pos (List.contains_iff_mem.mpr hjson)]
  rfl

/-! ## What is decoded -/

theorem readBody_eq_ok {depth : Nat} {c c' : Wire.Cursor} {v : Value}
    (h : p.readBody depth d c = .ok v c') : ∃ fields, v = .object d.id fields := by
  cases depth with
  | zero =>
      rw [readBody] at h
      cases h
  | succ depth =>
      rw [readBody_succ] at h
      obtain ⟨fields, _, -, hpure⟩ := Wire.bind_eq_ok_iff.mp h
      cases hpure
      exact ⟨fields, rfl⟩

theorem readGeneric_of_decode {bytes : List UInt8} {v : Value} (h : p.decode bytes = .ok v) :
    ∃ depth c, p.readGeneric (depth + 1) (.ofBytes bytes) = .ok v c := by
  obtain ⟨depth, hdepth⟩ : ∃ depth, p.maxDepth bytes.length = depth + 1 :=
    Nat.exists_eq_succ_of_ne_zero (Nat.mul_ne_zero (Nat.succ_ne_zero _) (Nat.succ_ne_zero _))
  unfold decode Decoding.run decodeFrom at h
  split at h
  · rename_i c hread
    cases h
    exact ⟨depth, c, by rw [← hdepth]; exact hread⟩
  · cases h

theorem ReadsObject.decode (h : p.ReadsObject id d) {rest : List UInt8} {v : Value}
    (hdecode : p.decode (Wire.uint32 id ++ rest) = .ok v) : ∃ fields, v = .object d.id fields := by
  obtain ⟨depth, c, hread⟩ := readGeneric_of_decode hdecode
  exact readBody_eq_ok ((h (.generic .top) (.generic .top) depth 0 rest).symm.trans hread)

theorem ReadsJson.decode (h : p.ReadsJson id) {rest : List UInt8} {v : Value}
    (hdecode : p.decode (Wire.uint32 id ++ rest) = .ok v) : ∃ j, v = .json j := by
  obtain ⟨depth, c, hread⟩ := readGeneric_of_decode hdecode
  have hjson := (h (.generic .top) (.generic .top) depth 0 rest).symm.trans hread
  obtain ⟨j, _, -, hpure⟩ := Wire.bind_eq_ok_iff.mp hjson
  cases hpure
  exact ⟨j, rfl⟩

/-! ## Identifiers of declarations -/

/-- The identifier of a declaration is none of those of truth values and vectors. Where no type is
declared, what starts with it is read as an object of the declaration, exactly if it is none of
those of JSON values either; otherwise it is read as a JSON value. -/
theorem leadingId_exact (hp : compile schemas capabilities = .ok p) {schema name : String}
    {index : Nat} (hentry : p.dispatch.get? id = some (.declaration schema name index)) :
    ∃ d, p.declarations[index]? = some d ∧ d.id = id ∧ id ∉ DispatchTable.reservedIds ∧
      (id ∉ Wire.jsonIds → p.ReadsObject id d) ∧ (id ∈ Wire.jsonIds → p.ReadsJson id) ∧
      ∀ rest v, p.decode (Wire.uint32 id ++ rest) = .ok v →
        ((∃ fields, v = .object id fields) ↔ id ∉ Wire.jsonIds) := by
  obtain ⟨-, -, -, -, -, hdispatch, -⟩ := compile_eq_ok hp
  obtain ⟨d, hindex, rfl, -⟩ := DispatchTable.get?_eq_declaration hdispatch hentry
  have hd : p.dispatched d.id = .ok d := by
    rw [dispatched, hentry]
    simp only [hindex]
  have hreserved := (id_of_dispatched hp hd).2
  refine ⟨d, hindex, rfl, hreserved, readsObject hd hreserved, readsJson hreserved, ?_⟩
  intro rest v hdecode
  by_cases hjson : d.id ∈ Wire.jsonIds
  · obtain ⟨j, rfl⟩ := (readsJson hreserved hjson).decode hdecode
    simp [hjson]
  · obtain ⟨fields, rfl⟩ := (readsObject hd hreserved hjson).decode hdecode
    simp [hjson]

/-- A person is read as one, also where a type variable is declared. -/
theorem leadingId_exact_person :
    people.dispatch.get? 2 = some (.declaration "api" "person" 1) ∧
      (2 : UInt32) ∉ Wire.jsonIds ∧ people.ReadsObject 2 person := by
  have hentry : people.dispatch.get? 2 = some (.declaration "api" "person" 1) := by
    decide
  obtain ⟨d, hd, -, -, hobject, -⟩ := leadingId_exact compile_people hentry
  obtain rfl : person = d := Option.some.inj hd
  exact ⟨hentry, by decide, hobject (by decide)⟩

end PlanSet

/-! ## A declaration behind a JSON identifier -/

def Schema.masks : Schema where
  config := {}
  layer := none
  constructors := [
    ⟨.constructor, Wire.jsonNullId, ⟨[], "mask"⟩, [⟨"x", .primitive .int⟩],
      .named ⟨[], "Mask"⟩ false⟩]
  methods := []

def PlanSet.masks : PlanSet :=
  (compile [.masks] {}).toOption.getD default

theorem compile_masks : compile [.masks] {} = .ok .masks := by
  rfl

namespace PlanSet

/-- The mask is dispatched to and written, but its bytes are read as `null`. -/
theorem not_readsObject_mask :
    compile [.masks] {} = .ok masks ∧
      masks.dispatch.get? Wire.jsonNullId = some (.declaration "api" "mask" 0) ∧
      masks.encode (.object Wire.jsonNullId [("x", .int 7)]) =
        .ok (Wire.uint32 Wire.jsonNullId ++ [7, 0, 0, 0]) ∧
      masks.decode (Wire.uint32 Wire.jsonNullId ++ [7, 0, 0, 0]) = .ok (.json .null) ∧
      ∀ d, ¬masks.ReadsObject Wire.jsonNullId d := by
  have hencode : masks.encode (.object Wire.jsonNullId [("x", .int 7)]) =
      .ok (Wire.uint32 Wire.jsonNullId ++ [7, 0, 0, 0]) := by
    cbv
  have hdecode : masks.decode (Wire.uint32 Wire.jsonNullId ++ [7, 0, 0, 0]) =
      .ok (.json .null) := by
    rfl
  refine ⟨compile_masks, by decide, hencode, hdecode, fun d hobject => ?_⟩
  obtain ⟨fields, heq⟩ := hobject.decode hdecode
  cases heq

end PlanSet

end TypeLang
