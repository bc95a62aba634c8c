import Mathlib
import TypeLang.Proofs.Codec.RoundTrip
import TypeLang.Proofs.Wire.Spanning

/-!
# Decoding looks at nothing but the value

A value is decoded from its own bytes: whatever stands behind them makes no difference, and if they
are cut short anywhere, the end of the buffer is reported and nothing else. The exception is a
vector whose items have no declared type, since how these are read depends on how many bytes
remain.

`readDelimited` is the reader without this exception: it gives up in front of such a vector, as it
does where the depth is used up. It is local, and wherever it does not give up, `readGeneric` does
the same. `decodeFrom_delimited` puts this together.
-/

namespace TypeLang

open Wire (Cursor Yields Local Spans)
open Decoding (wire Agrees Forward Settled)

namespace Decoding

variable {α : Type}

abbrev eof : CodecError := .wire .endOfBuffer

theorem wire_local {read : Wire.Read α} (h : Local .endOfBuffer read) : Local eof (wire read) := by
  intro c x c' hread
  unfold wire at hread
  split at hread
  · rename_i hok
    cases hread
    obtain ⟨n, hn, hc, hspans⟩ := h c x _ hok
    refine ⟨n, hn, hc, wire_takes hspans.takes, fun m hm position => ?_⟩
    obtain ⟨stop, hstop⟩ := hspans.short m hm position
    exact ⟨stop, by rw [wire, hstop]⟩
  · cases hread

theorem ofExcept_local (result : Except CodecError α) :
    Local eof (ofExcept result : Decoding α) := by
  cases result with
  | ok x => exact .pure x
  | error e => exact .throw e

theorem peek_eq_ok {c c' : Cursor} {id : UInt32}
    (h : wire Wire.Read.peekUInt32 c = .ok id c') :
    c' = c ∧ Spans .endOfBuffer Wire.Read.uint32 (c.rest.take 4) id := by
  unfold wire Wire.Read.peekUInt32 at h
  cases hread : Wire.Read.uint32 c with
  | error e stop => rw [hread] at h; cases h
  | ok v c₁ =>
      rw [hread] at h
      cases h
      obtain ⟨n, -, rfl, hspans⟩ := Wire.Read.uint32_local _ _ _ hread
      obtain ⟨k, -, hskip, rfl⟩ := Wire.Read.uint32_yields _ _ _ hread
      rw [Cursor.eq_of_skip_eq hskip] at hspans
      exact ⟨rfl, hspans⟩

theorem peek_of_takes {bytes : List UInt8} {id : UInt32}
    (h : Wire.Takes Wire.Read.uint32 bytes id) (position : Nat) (rest : List UInt8) :
    wire Wire.Read.peekUInt32 ⟨position, bytes ++ rest⟩ = .ok id ⟨position, bytes ++ rest⟩ := by
  unfold wire Wire.Read.peekUInt32
  rw [h]

/-- What is looked at first is part of what is taken, if that is an identifier at least. -/
theorem peek_local {next : UInt32 → Decoding α} (hnext : ∀ id, Local eof (next id))
    (hsize : ∀ id, Yields (next id) fun _ taken => 4 ≤ taken) :
    Local eof (wire Wire.Read.peekUInt32 >>= next) := by
  intro c x c'' h
  obtain ⟨id, c', hpeek, hx⟩ := Wire.bind_eq_ok_iff.mp h
  obtain ⟨rfl, hid⟩ := peek_eq_ok hpeek
  obtain ⟨n, hn, rfl, hspans⟩ := hnext id _ x _ hx
  obtain ⟨k, -, hskip, hk⟩ := hsize id _ x _ hx
  obtain rfl := Cursor.eq_of_skip_eq hskip
  obtain ⟨n, rfl⟩ : ∃ more, n = 4 + more := ⟨n - 4, by omega⟩
  have hlength : (c'.rest.take 4).length = 4 := by
    rw [List.length_take]
    unfold Cursor.remaining at hn
    omega
  refine ⟨4 + n, hn, rfl, ?_⟩
  rw [List.take_add] at hspans ⊢
  refine ⟨fun position rest => ?_, fun m hm position => ?_⟩
  · rw [List.append_assoc, Wire.bind_of_eq_ok (peek_of_takes hid.takes position _),
      ← List.append_assoc]
    exact hspans.takes position rest
  · by_cases hcut : m < 4
    · obtain ⟨stop, hstop⟩ := hid.short m (by omega) position
      rw [List.take_append_of_le_length (by omega)]
      refine ⟨⟨position, (c'.rest.take 4).take m⟩, Wire.bind_eq_error ?_⟩
      rw [wire, Wire.Read.peekUInt32, hstop]
    · obtain ⟨stop, hstop⟩ := hspans.short m hm position
      rw [List.take_append, List.take_of_length_le (by omega)] at hstop ⊢
      exact ⟨stop, (Wire.bind_of_eq_ok (peek_of_takes hid.takes position _)).trans hstop⟩

end Decoding

namespace PlanSet

variable {p : PlanSet}

/-! ## Readers that use others -/

section

open Decoding (eof)

variable {generic : Decoding Value} {body : DeclarationPlan → Decoding Value}

theorem readPrimitive_local (hgeneric : Local eof generic) (kind : Primitive) :
    Local eof (readPrimitive generic kind) := by
  cases kind with
  | int => exact (Decoding.wire_local Wire.Read.int32_local).map _
  | long => exact (Decoding.wire_local Wire.Read.int64_local).map _
  | double => exact (Decoding.wire_local Wire.Read.uint64_local).map _
  | bool => exact (Decoding.wire_local Wire.Read.bool_local).map _
  | trueLiteral => exact .pure _
  | bytes => exact (Decoding.wire_local Wire.Read.payload_local).map _
  | string => exact (Decoding.wire_local Wire.Read.string_local).map _
  | int128 => exact (Decoding.wire_local (Wire.Read.raw_local 16)).map _
  | int256 => exact (Decoding.wire_local (Wire.Read.raw_local 32)).map _
  | json => exact (Decoding.wire_local JsonValue.read_local).map _
  | flags => exact (Decoding.wire_local Wire.Read.int32_local).map _
  | object => exact hgeneric

theorem readTyped_local (hbody : ∀ d, Local eof (body d)) (hgeneric : Local eof generic)
    (site : Site) (type : TypeExpr) : Local eof (readTyped p body generic site type) := by
  induction type with
  | primitive kind => exact readPrimitive_local hgeneric kind
  | flag flag inner ih => exact ih
  | var name => exact hgeneric
  | vector inner boxed ih =>
      rw [readTyped_vector]
      refine .bind ?_ fun _ => ?_
      · exact .ite (fun _ => Decoding.wire_local (Wire.Read.id_local _)) fun _ => .pure ()
      refine (Decoding.wire_local Wire.Read.count_local).bind fun n => ?_
      exact (Wire.Read.items_local ih n).bind fun items => .pure _
  | named name bare =>
      cases bare with
      | true => exact (Decoding.ofExcept_local _).bind hbody
      | false =>
          refine (Decoding.wire_local Wire.Read.uint32_local).bind fun id => ?_
          exact (Decoding.ofExcept_local _).bind hbody

theorem readFields_local {read : FieldPlan → Decoding Value} (hread : ∀ f, Local eof (read f))
    (words : List (String × UInt32)) (fields : Fields) (todo : List FieldPlan) :
    Local eof (readFields read words fields todo) := by
  induction todo generalizing words fields with
  | nil => exact .pure fields
  | cons f rest ih =>
      have hvalue (hkind : (∃ size, f.kind = .fixed size) ∨ f.kind = .dynamic) :
          Local eof (readFields read words fields (f :: rest)) := by
        rw [readFields_value hkind]
        exact .ite (fun _ => (hread f).bind fun value => ih _ _) fun _ => ih _ _
      cases hkind : f.kind with
      | flagsWord unused =>
          rw [readFields_word hkind]
          exact (Decoding.wire_local Wire.Read.uint32_local).bind fun word => ih _ _
      | trueBit =>
          rw [readFields_bit hkind]
          exact ih _ _
      | fixed size => exact hvalue (.inl ⟨size, hkind⟩)
      | dynamic => exact hvalue (.inr hkind)

end

/-! ## Readers that do not count the bytes that remain -/

mutual

/-- Reads a value that tells its own type like `readGeneric`, but gives up in front of a vector. -/
def readDelimited (p : PlanSet) (depth : Nat) : Decoding Value :=
  match depth with
  | 0 => throw (.endless Site.top.field)
  | depth + 1 => do
    let id ← wire Wire.Read.peekUInt32
    if id = Wire.boolTrueId ∨ id = Wire.boolFalseId then return .bool (← wire Wire.Read.bool)
    else if id = Wire.vectorId then throw (.endless Site.top.field)
    else if Wire.jsonIds.contains id then return .json (← wire JsonValue.read)
    else
      let id ← wire Wire.Read.uint32
      readDelimitedBody p depth (← ofExcept (p.dispatched id))

/-- Reads the fields of an object like `readBody`, but gives up in front of a vector of items whose
type is not declared. -/
def readDelimitedBody (p : PlanSet) (depth : Nat) (d : DeclarationPlan) : Decoding Value :=
  match depth with
  | 0 => throw (.endless d.name)
  | depth + 1 => do
    let read (f : FieldPlan) :=
      readTyped p (readDelimitedBody p depth) (readDelimited p depth) (d.site f) f.valueType
    return .object d.id (← readFields read [] [] d.layout.fields)

end

/-- Decoding at `c` comes to no vector whose items have no declared type: it does the same if it
gives up there. -/
def Delimited (p : PlanSet) (c : Cursor) : Prop :=
  p.readDelimited (p.maxDepth c.remaining) c = p.decodeFrom c

theorem readDelimitedBody_succ (depth : Nat) (d : DeclarationPlan) :
    readDelimitedBody p (depth + 1) d = (do
      return .object d.id (← readFields (fun f =>
        readTyped p (readDelimitedBody p depth) (readDelimited p depth) (d.site f) f.valueType)
        [] [] d.layout.fields)) := by
  rw [readDelimitedBody]

open Decoding (eof) in
theorem readDelimited_local (depth : Nat) :
    Local eof (readDelimited p depth) ∧ ∀ d, Local eof (readDelimitedBody p depth d) := by
  induction depth with
  | zero =>
      refine ⟨?_, fun d => ?_⟩
      · rw [readDelimited]
        exact .throw _
      · rw [readDelimitedBody]
        exact .throw _
  | succ depth ih =>
      obtain ⟨hgeneric, hbody⟩ := ih
      have hobject : Local eof (do
          let id ← wire Wire.Read.uint32
          readDelimitedBody p depth (← ofExcept (p.dispatched id))) :=
        (Decoding.wire_local Wire.Read.uint32_local).bind fun id =>
          (Decoding.ofExcept_local _).bind hbody
      refine ⟨?_, fun d => ?_⟩
      · rw [readDelimited]
        refine Decoding.peek_local (fun id => ?_) fun id => ?_
        · refine .ite (fun _ => ?_) fun _ => .ite (fun _ => .throw _) fun _ => ?_
          · exact (Decoding.wire_local Wire.Read.bool_local).bind fun b => .pure _
          · refine .ite (fun _ => ?_) fun _ => hobject
            exact (Decoding.wire_local JsonValue.read_local).bind fun j => .pure _
        · refine .ite (fun _ => ?_) fun _ => .ite (fun _ => .throw _) fun _ => ?_
          · exact (Decoding.wire_yields Wire.Read.bool_yields).bind_pure fun _ _ h => h.ge
          · refine .ite (fun _ => ?_) fun _ => ?_
            · refine (Decoding.wire_yields JsonValue.read_yields).bind_pure fun j taken h => ?_
              obtain ⟨id, -, more, hencode⟩ := j.encode_eq
              rw [hencode, List.length_append, Wire.length_uint32] at h
              omega
            · refine (Decoding.wire_yields Wire.Read.uint32_yields).bind fun id _ hid => ?_
              refine (Decoding.ofExcept_yields _).bind fun d _ _ => ?_
              exact (hbody d).yields.mono fun _ _ _ => by omega
      · rw [readDelimitedBody_succ]
        refine (readFields_local (fun f => ?_) [] [] _).bind fun fields => .pure _
        exact readTyped_local hbody hgeneric _ _

section

variable {schemas : List Schema} {capabilities : Capabilities}
  (hp : compile schemas capabilities = .ok p)

include hp

/-- Where the reader does not give up in front of a vector, it reads what there is. -/
theorem readDelimited_agrees (depth : Nat) (c : Cursor) :
    Agrees (readDelimited p depth) (readGeneric p depth) c ∧
      ∀ d ∈ p.declarations, Agrees (readDelimitedBody p depth d) (readBody p depth d) c := by
  induction depth with
  | zero =>
      rw [readDelimited, readGeneric]
      refine ⟨.refl _ c, fun d _ => ?_⟩
      rw [readDelimitedBody, readBody]
      exact .refl _ c
  | succ depth ih =>
      obtain ⟨hgeneric, hbody⟩ := ih
      obtain ⟨hlocal, hlocals⟩ := @readDelimited_local p depth
      refine ⟨?_, fun d hd => ?_⟩
      · rw [readDelimited, readGeneric]
        refine .bind (.refl _ c) (Decoding.wire_yields Wire.Read.peekUInt32_yields) fun id _ _ => ?_
        refine .ite (fun _ => .refl _ c) fun _ => .ite (fun _ => ?_) fun _ => ?_
        · exact fun _ _ hsettled => (hsettled _ _ rfl).elim
        · refine .ite (fun _ => .refl _ c) fun _ => ?_
          refine .bind (.refl _ c) (Decoding.wire_yields Wire.Read.uint32_yields) fun id _ _ => ?_
          refine .bind (.refl _ c) (Decoding.ofExcept_yields _) ?_
          rintro d _ ⟨hd, -⟩
          exact hbody d (mem_of_dispatched hd)
      · rw [readDelimitedBody_succ, readBody_succ]
        have htreatment : ∀ f ∈ d.layout.fields, f.Treatment :=
          fun f hf => (planned_of_mem hp hd).treatment hf
        have hread (f : FieldPlan) := readTyped_local (p := p) hlocals hlocal (d.site f) f.valueType
        refine (readFields_agrees htreatment (fun f _ => ?_) (fun f _ => (hread f).yields) [] []
          ).bind_pure (readFields_local hread [] [] _).yields
        exact readTyped_agrees hbody (fun d _ => (hlocals d).yields) hgeneric hlocal.yields _ _

/-- What the reader settles without a vector of unknown items is what is decoded. -/
theorem decodeFrom_eq_of_readDelimited {depth : Nat} {c : Cursor}
    {result : EStateM.Result CodecError Cursor Value} (h : readDelimited p depth c = result)
    (hsettled : Settled result) : p.decodeFrom c = result := by
  have hgeneric := (readDelimited_agrees hp depth c).1 0 (Nat.zero_le _)
  rw [Cursor.skip_zero, h] at hgeneric
  have hdepth := (read_maxDepth hp c depth).1 0 (Nat.zero_le _)
  rw [Cursor.skip_zero, hgeneric hsettled] at hdepth
  exact hdepth hsettled

/-- A value that is decoded without coming to a vector of unknown items is decoded from the bytes
that it takes, whatever stands behind them, and from no smaller part of them: there the end of the
buffer is met. -/
theorem decodeFrom_delimited {bytes : List UInt8} {v : Value} {c : Cursor}
    (h : p.decodeFrom (.ofBytes bytes) = .ok v c) (hdelimited : p.Delimited (.ofBytes bytes)) :
    c.position ≤ bytes.length ∧
      (∀ rest, p.decodeFrom (.ofBytes (bytes.take c.position ++ rest)) =
        .ok v ⟨c.position, rest⟩) ∧
      ∀ m < c.position, p.decode (bytes.take m) = .error (.wire .endOfBuffer) := by
  have hread : p.readDelimited (p.maxDepth bytes.length) (.ofBytes bytes) = .ok v c :=
    hdelimited.trans h
  obtain ⟨n, hn, rfl, hspans⟩ := readDelimited_local _ |>.1 _ _ _ hread
  have hposition : ((Cursor.ofBytes bytes).skip n).position = n := Nat.zero_add n
  have hlength : (bytes.take n).length = n := List.length_take_of_le hn
  rw [hposition]
  refine ⟨hn, fun rest => ?_, fun m hm => ?_⟩
  · have htakes := hspans.takes 0 rest
    rw [Nat.zero_add] at htakes
    have hdecode := decodeFrom_eq_of_readDelimited hp htakes Decoding.settled_ok
    rw [show (Cursor.ofBytes bytes).rest.take n = bytes.take n from rfl, hlength] at hdecode
    exact hdecode
  · obtain ⟨stop, hstop⟩ := hspans.short m (by rw [← hlength] at hm; exact hm) 0
    rw [List.take_take, Nat.min_eq_left hm.le] at hstop
    have hdecode := decodeFrom_eq_of_readDelimited hp hstop (by intro name c hresult; cases hresult)
    have hcut : p.decodeFrom (.ofBytes (bytes.take m)) = .error Decoding.eof stop := hdecode
    rw [decode, Decoding.run, hcut]

end

/-- A person in front of one more byte, and the first half of them. -/
theorem decodeFrom_delimited_person :
    let bytes : List UInt8 :=
      [2, 0, 0, 0, 1, 0, 0, 0, 3, 0, 0, 0, 4, 0, 0, 0, 2, 97, 98, 0, 9]
    let v : Value := .object 2
      [("home", .object 1 [("x", .int 3), ("y", .int 4)]), ("name", .string "ab"),
        ("away", .bool false)]
    people.decodeFrom (.ofBytes bytes) = .ok v ⟨20, [9]⟩ ∧ people.Delimited (.ofBytes bytes) ∧
      people.decodeFrom (.ofBytes (bytes.take 20 ++ [7, 7])) = .ok v ⟨20, [7, 7]⟩ ∧
      people.decode (bytes.take 10) = .error (.wire .endOfBuffer) := by
  intro bytes v
  have hread : people.readDelimited (people.maxDepth 21) (.ofBytes bytes) = .ok v ⟨20, [9]⟩ := by
    cbv
  have hdecode : people.decodeFrom (.ofBytes bytes) = .ok v ⟨20, [9]⟩ :=
    decodeFrom_eq_of_readDelimited compile_people hread Decoding.settled_ok
  have hdelimited : people.Delimited (.ofBytes bytes) :=
    hread.trans hdecode.symm
  obtain ⟨-, hmore, hless⟩ := decodeFrom_delimited compile_people hdecode hdelimited
  exact ⟨hdecode, hdelimited, hmore [7, 7], hless 10 (by decide)⟩

end PlanSet

end TypeLang
