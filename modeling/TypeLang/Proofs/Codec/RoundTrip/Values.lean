import TypeLang.Proofs.Codec.Canonical
import TypeLang.Proofs.Codec.Depth

/-!
# Reading back values

`RoundTrips p slot v` says that a value is written, and that a reader that is given enough depth
reads it back as the same value. This holds of values without parts, and of vectors if it holds of
their items.
-/

namespace TypeLang

open Wire (Takes)
open Decoding (wire)

theorem Decoding.wire_takes {α : Type} {read : Wire.Read α} {bytes : List UInt8} {x : α}
    (h : Takes read bytes x) : Takes (wire read) bytes x := by
  intro position rest
  unfold wire
  rw [h]

theorem JsonValue.encode_eq (j : JsonValue) :
    ∃ id ∈ Wire.jsonIds, ∃ more, j.encode = Wire.uint32 id ++ more := by
  cases j with
  | null => exact ⟨Wire.jsonNullId, by decide, [], by simp [encode]⟩
  | bool v => exact ⟨Wire.jsonBoolId, by decide, _, rfl⟩
  | number bits => exact ⟨Wire.jsonNumberId, by decide, _, rfl⟩
  | string s => exact ⟨Wire.jsonStringId, by decide, _, rfl⟩
  | array items => exact ⟨Wire.jsonArrayId, by decide, _, rfl⟩
  | object members => exact ⟨Wire.jsonObjectId, by decide, _, rfl⟩

namespace Slot

def write (p : PlanSet) : Slot → Value → Output
  | generic site, v => p.writeGeneric site v
  | typed site type, v => p.writeTyped site type v
  | body d, .object _ fields => p.writeFields d fields d.layout.fields
  | body d, _ => .failed (.unknownType d.name)

def read (p : PlanSet) (depth : Nat) : Slot → Decoding Value
  | generic _ => p.readGeneric depth
  | typed site type => p.readTyped (p.readBody depth) (p.readGeneric depth) site type
  | body d => p.readBody depth d

end Slot

namespace PlanSet

variable {p : PlanSet}

def RoundTrips (p : PlanSet) (slot : Slot) (v : Value) : Prop :=
  ∃ bytes w depth, slot.write p v = .ofBytes bytes ∧ v.Same w ∧
    ∀ n, depth ≤ n → Takes (slot.read p n) bytes w

/-! ## Values without parts -/

theorem writePrimitive_takes {kind : Primitive} {v : Value} (h : kind.Admits v) (site : Site) :
    kind ≠ .object ∧ ∃ bytes, writePrimitive site kind v = .ofBytes bytes ∧
      ∀ generic, Takes (readPrimitive generic kind) bytes v := by
  unfold Primitive.Admits at h
  split at h
  case h_1 n =>
      exact ⟨by decide, _, rfl, fun _ =>
        (Decoding.wire_takes (Wire.Read.int32_takes n)).map Value.int⟩
  case h_2 n =>
      exact ⟨by decide, _, rfl, fun _ =>
        (Decoding.wire_takes (Wire.Read.int64_takes n)).map Value.long⟩
  case h_3 bits =>
      exact ⟨by decide, _, rfl, fun _ =>
        (Decoding.wire_takes (Wire.Read.uint64_takes bits)).map Value.double⟩
  case h_4 b =>
      exact ⟨by decide, _, rfl, fun _ =>
        (Decoding.wire_takes (Wire.Read.bool_takes b)).map Value.bool⟩
  case h_5 b =>
      subst h
      exact ⟨by decide, [], rfl, fun _ => .pure _⟩
  case h_6 payload =>
      refine ⟨by decide, Wire.payload payload, writePayload_eq_ofBytes.mpr ⟨h, rfl⟩, fun _ => ?_⟩
      exact (Decoding.wire_takes (Wire.Read.payload_takes h)).map Value.bytes
  case h_7 text =>
      refine ⟨by decide, Wire.string text, ?_, fun _ => ?_⟩
      · exact writePayload_eq_ofBytes.mpr ⟨by simpa using h, rfl⟩
      · exact (Decoding.wire_takes (Wire.Read.string_takes h)).map Value.string
  case h_8 v =>
      exact ⟨by decide, _, rfl, fun _ =>
        (Decoding.wire_takes (Wire.Read.raw_takes v)).map Value.int128⟩
  case h_9 v =>
      exact ⟨by decide, _, rfl, fun _ =>
        (Decoding.wire_takes (Wire.Read.raw_takes v)).map Value.int256⟩
  case h_10 j =>
      exact ⟨by decide, _, rfl, fun _ =>
        (Decoding.wire_takes (JsonValue.read_takes h)).map Value.json⟩
  case h_11 => exact h.elim

theorem peek_takes {α : Type} {id : UInt32} {more : List UInt8} {next : UInt32 → Decoding α} {x : α}
    (h : Takes (next id) (Wire.uint32 id ++ more) x) :
    Takes (wire Wire.Read.peekUInt32 >>= next) (Wire.uint32 id ++ more) x := by
  intro position rest
  have hpeek : wire Wire.Read.peekUInt32 ⟨position, Wire.uint32 id ++ more ++ rest⟩ =
      .ok id ⟨position, Wire.uint32 id ++ more ++ rest⟩ := by
    have huint32 := Wire.Read.uint32_takes id position (more ++ rest)
    rw [← List.append_assoc] at huint32
    unfold wire Wire.Read.peekUInt32
    rw [huint32]
  show EStateM.bind _ _ _ = _
  rw [EStateM.bind, hpeek]
  exact h position rest

/-! ## Vectors -/

/-- Values of one slot are written one by one, and there is a depth from which on a reader reads
back all of them. -/
theorem exists_encodings {slot : Slot} {items : List Value}
    (h : ∀ item ∈ items, p.RoundTrips slot item) :
    ∃ encodings others depth,
      List.Forall₂ (fun item bytes => slot.write p item = .ofBytes bytes) items encodings ∧
      List.Forall₂ Value.Same items others ∧
      ∀ n, depth ≤ n → List.Forall₂ (Takes (slot.read p n)) encodings others := by
  induction items with
  | nil => exact ⟨[], [], 0, .nil, .nil, fun _ _ => .nil⟩
  | cons item items ih =>
      obtain ⟨bytes, w, depth, hwrite, hsame, hitem⟩ := h item List.mem_cons_self
      obtain ⟨encodings, others, depth', hwrites, hsames, hrest⟩ :=
        ih fun other hother => h other (List.mem_cons_of_mem _ hother)
      refine ⟨bytes :: encodings, w :: others, max depth depth', .cons hwrite hwrites,
        .cons hsame hsames, fun n hn => ?_⟩
      exact .cons (hitem n (by omega)) (hrest n (by omega))

theorem writeItems_eq {site : Site} {inner : TypeExpr} {items : List Value}
    {encodings : List (List UInt8)}
    (h : List.Forall₂ (fun item bytes => p.writeTyped site inner item = .ofBytes bytes)
      items encodings) :
    p.writeItems site inner items = .ofBytes encodings.flatten := by
  induction h with
  | nil =>
      rw [writeItems]
      rfl
  | cons hitem _ ih => rw [writeItems, hitem, ih, Output.ofBytes_append_ofBytes, List.flatten_cons]

theorem roundTrips_vector {site : Site} {inner : TypeExpr} {boxed : Bool} {items : List Value}
    (hlength : items.length < 2 ^ 31)
    (h : ∀ item ∈ items, p.RoundTrips (.typed site inner) item) :
    p.RoundTrips (.typed site (.vector inner boxed)) (.vector items) := by
  obtain ⟨encodings, others, depth, hwrites, hsame, htakes⟩ := exists_encodings h
  refine ⟨(if boxed then Wire.vectorHeader items.length else Wire.count items.length) ++
    encodings.flatten, .vector others, depth, ?_, .of_forall₂ hsame, ?_⟩
  · rw [Slot.write, writeTyped, writeItems_eq hwrites, Output.ofBytes_append_ofBytes]
  · intro n hn
    have hcount : Takes (do
        let count ← wire Wire.Read.count
        return Value.vector (← Wire.Read.items (Slot.read p n (.typed site inner)) count))
        (Wire.count items.length ++ encodings.flatten) (.vector others) := by
      have hitems := Wire.Read.items_takes_of_forall₂ (htakes n hn)
      rw [← hsame.length_eq] at hitems
      apply (Decoding.wire_takes (Wire.Read.count_takes hlength)).bind
      exact hitems.bind_pure rfl
    rw [Slot.read, readTyped_vector]
    cases boxed with
    | true =>
        rw [if_pos rfl, if_pos rfl, Wire.vectorHeader, List.append_assoc]
        exact (Decoding.wire_takes (Wire.Read.id_takes _)).bind hcount
    | false =>
        rw [if_neg Bool.false_ne_true, if_neg Bool.false_ne_true, pure_bind]
        exact hcount

/-! ## Values that tell their own type -/

theorem roundTrips_bool {site : Site} (v : Bool) : p.RoundTrips (.generic site) (.bool v) := by
  refine ⟨Wire.bool v, .bool v, 1, by rw [Slot.write, writeGeneric], .refl _, ?_⟩
  intro n hn
  obtain ⟨n, rfl⟩ : ∃ k, n = k + 1 := ⟨n - 1, by omega⟩
  have hread : Takes (do return .bool (← wire Wire.Read.bool)) (Wire.bool v) (Value.bool v) :=
    (Decoding.wire_takes (Wire.Read.bool_takes v)).bind_pure rfl
  rw [Slot.read, readGeneric]
  unfold Wire.bool at hread ⊢
  rw [← List.append_nil (Wire.uint32 _)] at hread ⊢
  apply peek_takes
  rw [if_pos (by cases v <;> decide)]
  exact hread

theorem roundTrips_json {site : Site} {j : JsonValue} (hfits : j.Fits) :
    p.RoundTrips (.generic site) (.json j) := by
  refine ⟨j.encode, .json j, 1, by rw [Slot.write, writeGeneric], .refl _, ?_⟩
  intro n hn
  obtain ⟨n, rfl⟩ : ∃ k, n = k + 1 := ⟨n - 1, by omega⟩
  have hread : Takes (do return .json (← wire JsonValue.read)) j.encode (Value.json j) :=
    (Decoding.wire_takes (JsonValue.read_takes hfits)).bind_pure rfl
  obtain ⟨id, hid, more, hencode⟩ := j.encode_eq
  have hother : ¬(id = Wire.boolTrueId ∨ id = Wire.boolFalseId) ∧ ¬id = Wire.vectorId := by
    simp only [Wire.jsonIds, List.mem_cons, List.not_mem_nil, or_false] at hid
    rcases hid with rfl | rfl | rfl | rfl | rfl | rfl <;> decide
  have hjson : Wire.jsonIds.contains id = true := List.contains_iff_mem.mpr hid
  obtain ⟨hbool, hvector⟩ := hother
  rw [Slot.read, readGeneric]
  rw [hencode] at hread ⊢
  apply peek_takes
  rw [if_neg hbool, if_neg hvector, if_pos hjson]
  exact hread

theorem bind_ofExcept {α β : Type} {result : Except CodecError α} {x : α} (h : result = .ok x)
    (next : α → Decoding β) : (ofExcept result >>= next) = next x := by
  rw [h]
  rfl

end PlanSet

end TypeLang
