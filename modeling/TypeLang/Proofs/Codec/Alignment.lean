import Mathlib
import TypeLang.Proofs.Codec.Depth
import TypeLang.Proofs.Codec.Size
import TypeLang.Proofs.Wire.WireTypes

/-!
# Whole words

Everything on the wire is a number of whole words of four bytes. What is written is one wherever the
writer stops, so a buffer stays aligned when a value cannot be written. What is read is one for
bytes that no writer need have written: payloads behind a longer header than they need, padding that
is not zero, flags words with bits that mean nothing.
-/

namespace TypeLang

open Wire (Yields)
open Decoding (wire)

/-! ## Words on the wire -/

namespace Wire

theorem dvd_add_padding (n : Nat) : 4 ∣ n + padding n := by
  unfold padding
  omega

theorem dvd_payloadSize (n : Nat) : 4 ∣ payloadSize n :=
  dvd_add_padding (headerSize n + n)

def Aligned {ε α : Type} (read : EStateM ε Cursor α) : Prop :=
  Yields read fun _ taken => 4 ∣ taken

namespace Aligned

variable {ε α β : Type} {read : EStateM ε Cursor α} {next : α → EStateM ε Cursor β}

theorem of_taken {n : Nat} (h : Yields read fun _ taken => taken = n) (hn : 4 ∣ n) :
    Aligned read :=
  h.mono fun _ _ htaken => htaken ▸ hn

theorem pure (x : α) : Aligned (Pure.pure x : EStateM ε Cursor α) :=
  Yields.pure (Nat.dvd_zero 4)

theorem throw (e : ε) : Aligned (throw e : EStateM ε Cursor α) :=
  Yields.throw e

theorem bind (hread : Aligned read) (hnext : ∀ x, Aligned (next x)) : Aligned (read >>= next) :=
  Yields.bind hread fun x _ hm => (hnext x).mono fun _ _ hn => Nat.dvd_add hm hn

theorem map (f : α → β) (hread : Aligned read) : Aligned (f <$> read) :=
  hread.bind fun x => pure (f x)

theorem ite {q : Prop} [Decidable q] {first second : EStateM ε Cursor α}
    (hfirst : Aligned first) (hsecond : Aligned second) :
    Aligned (if q then first else second) :=
  Yields.ite (fun _ => hfirst) fun _ => hsecond

theorem items (hread : Aligned read) (n : Nat) : Aligned (Read.items read n) := by
  apply (Read.items_yields hread n).mono
  rintro xs _ ⟨-, sizes, hxs, rfl⟩
  refine List.dvd_sum fun size hsize => ?_
  obtain ⟨_, -, hdvd⟩ := exists_mem_of_forall₂ hxs hsize
  exact hdvd

end Aligned

namespace Read

theorem uint32_aligned : Aligned uint32 := .of_taken uint32_yields (Nat.dvd_refl 4)

theorem uint64_aligned : Aligned uint64 := .of_taken uint64_yields (by decide)

theorem int32_aligned : Aligned int32 := .of_taken int32_yields (Nat.dvd_refl 4)

theorem int64_aligned : Aligned int64 := .of_taken int64_yields (by decide)

theorem bool_aligned : Aligned bool := .of_taken bool_yields (Nat.dvd_refl 4)

theorem id_aligned (expected : UInt32) : Aligned (id expected) :=
  .of_taken (id_yields expected) (Nat.dvd_refl 4)

theorem count_aligned : Aligned count :=
  count_yields.mono fun _ _ h => h.2 ▸ Nat.dvd_refl 4

theorem payload_aligned : Aligned payload := by
  apply payload_yields_padded.mono
  rintro bytes _ ⟨header, rfl, -⟩
  exact dvd_add_padding (header + bytes.length)

theorem string_aligned : Aligned string := by
  refine payload_aligned.bind fun bytes => ?_
  split
  · exact .pure _
  · exact .throw _

end Read

end Wire

namespace JsonValue

mutual

theorem dvd_encodedSize (j : JsonValue) : 4 ∣ j.encodedSize := by
  match j with
  | null => exact Nat.dvd_refl 4
  | bool _ => exact ⟨2, rfl⟩
  | number _ => exact ⟨3, rfl⟩
  | string s =>
      rw [encodedSize]
      exact Nat.dvd_add (Nat.dvd_refl 4) (Wire.dvd_payloadSize _)
  | array items =>
      rw [encodedSize]
      exact Nat.dvd_add ⟨3, rfl⟩ (dvd_itemsSize items)
  | object members =>
      rw [encodedSize]
      exact Nat.dvd_add ⟨3, rfl⟩ (dvd_membersSize members)

theorem dvd_itemsSize (items : List JsonValue) : 4 ∣ itemsSize items := by
  match items with
  | [] => exact Nat.dvd_zero 4
  | item :: rest =>
      rw [itemsSize]
      exact Nat.dvd_add (dvd_encodedSize item) (dvd_itemsSize rest)

theorem dvd_membersSize (members : List (String × JsonValue)) : 4 ∣ membersSize members := by
  match members with
  | [] => exact Nat.dvd_zero 4
  | (key, value) :: rest =>
      have hkey := Nat.dvd_add (Nat.dvd_refl 4) (Wire.dvd_payloadSize key.utf8ByteSize)
      rw [membersSize]
      exact Nat.dvd_add (Nat.dvd_add hkey (dvd_encodedSize value)) (dvd_membersSize rest)

end

open Wire (Aligned)

theorem readNested_aligned (depth : Nat) : Aligned (readNested depth) := by
  induction depth with
  | zero => exact .throw _
  | succ depth ih =>
      have hmember : Aligned (readMember (readNested depth)) :=
        (Wire.Read.id_aligned _).bind fun _ =>
          Wire.Read.string_aligned.bind fun key => ih.bind fun value => .pure (key, value)
      have hcounted {α : Type} {read : Wire.Read α} (hread : Aligned read)
          (wrap : List α → JsonValue) : Aligned (do
            Wire.Read.id Wire.vectorId
            let n ← Wire.Read.count
            return wrap (← Wire.Read.items read n)) :=
        (Wire.Read.id_aligned _).bind fun _ =>
          Wire.Read.count_aligned.bind fun n => (hread.items n).bind fun xs => .pure (wrap xs)
      rw [readNested]
      refine Wire.Read.uint32_aligned.bind fun id => .ite (.pure _) ?_
      refine .ite (Wire.Read.bool_aligned.bind fun _ => .pure _) ?_
      refine .ite (Wire.Read.uint64_aligned.bind fun _ => .pure _) ?_
      refine .ite (Wire.Read.string_aligned.bind fun _ => .pure _) ?_
      exact .ite (hcounted ih array) (.ite (hcounted hmember object) (.throw _))

theorem read_aligned : Aligned read :=
  fun c => readNested_aligned (c.remaining + 1) c

end JsonValue

/-! ## Writing -/

namespace Output

def Aligned (o : Output) : Prop :=
  4 ∣ o.bytes.length

namespace Aligned

theorem empty : Aligned empty := Nat.dvd_zero 4

theorem failed (e : CodecError) : Aligned (failed e) := Nat.dvd_zero 4

theorem ofBytes {bytes : List UInt8} (h : 4 ∣ bytes.length) : Aligned (ofBytes bytes) := h

theorem append {a b : Output} (ha : a.Aligned) (hb : b.Aligned) : (a ++ b).Aligned := by
  obtain ⟨front, _ | e⟩ := a
  · show 4 ∣ (front ++ b.bytes).length
    rw [List.length_append]
    exact Nat.dvd_add ha hb
  · exact ha

end Aligned

end Output

namespace Decoding

open Wire (Aligned)

theorem wire_aligned {α : Type} {read : Wire.Read α} (h : Aligned read) : Aligned (wire read) :=
  wire_yields h

theorem ofExcept_aligned {α : Type} (result : Except CodecError α) :
    Aligned (ofExcept result : Decoding α) :=
  (ofExcept_yields result).mono fun _ _ h => h.2 ▸ Nat.dvd_zero 4

end Decoding

namespace PlanSet

open Wire (Aligned)
open Decoding (wire_aligned ofExcept_aligned)

theorem writePayload_aligned (site : Site) (payload : List UInt8) :
    (writePayload site payload).Aligned := by
  unfold writePayload
  split
  · refine .ofBytes ?_
    rw [Wire.length_payload]
    exact Wire.dvd_payloadSize _
  · exact .failed _

theorem writePrimitive_aligned (site : Site) (kind : Primitive) (v : Value) :
    (writePrimitive site kind v).Aligned := by
  unfold writePrimitive
  split
  case h_5 => exact writePayload_aligned site _
  case h_6 => exact writePayload_aligned site _
  case h_9 json =>
      refine .ofBytes ?_
      rw [JsonValue.length_encode]
      exact json.dvd_encodedSize
  case h_10 => exact .empty
  case h_11 => exact .failed _
  all_goals
    refine .ofBytes ?_
    simp [Wire.int32, Wire.int64, Wire.uint64, Wire.bool]

variable {p : PlanSet}

structure WritesAligned (p : PlanSet) (v : Value) : Prop where
  generic : ∀ site, (p.writeGeneric site v).Aligned
  typed : ∀ site type, (p.writeTyped site type v).Aligned

theorem writeItems_aligned {items : List Value} (hitems : ∀ item ∈ items, p.WritesAligned item)
    (site : Site) (type : TypeExpr) : (p.writeItems site type items).Aligned := by
  induction items with
  | nil =>
      rw [writeItems]
      exact .empty
  | cons item items ih =>
      rw [List.forall_mem_cons] at hitems
      rw [writeItems]
      exact (hitems.1.typed site type).append (ih hitems.2)

theorem writeGenericItems_aligned {items : List Value}
    (hitems : ∀ item ∈ items, p.WritesAligned item) (site : Site) :
    (p.writeGenericItems site items).Aligned := by
  induction items with
  | nil =>
      rw [writeGenericItems]
      exact .empty
  | cons item items ih =>
      rw [List.forall_mem_cons] at hitems
      unfold writeGenericItems
      split
      case h_1 heq => cases heq
      all_goals
        rename_i heq
        cases heq
        refine .append ?_ (ih hitems.2)
      case h_2 => exact .ofBytes (by simp [Wire.int32])
      case h_3 => exact .ofBytes (by simp [Wire.int64, Wire.uint64])
      case h_4 => exact hitems.1.generic site

theorem writeFields_aligned {d : DeclarationPlan} {fields : Fields}
    (hvalues : ∀ name v, fields.get? name = some v → p.WritesAligned v) (todo : List FieldPlan) :
    (p.writeFields d fields todo).Aligned := by
  induction todo with
  | nil =>
      rw [writeFields_nil]
      exact .empty
  | cons f rest ih =>
      rw [writeFields_cons]
      refine .append ?_ ih
      cases hkind : f.kind with
      | flagsWord unused =>
          rw [writeField_word hkind]
          exact .ofBytes (by simp)
      | trueBit =>
          rw [writeField_bit hkind]
          exact .empty
      | _ =>
          rw [writeField_value (by simp [hkind])]
          split
          · rename_i v hget
            exact (hvalues _ v hget).typed _ _
          · split
            · exact .empty
            · exact .failed _

section

variable {v : Value} (hparts : ∀ w, sizeOf w < sizeOf v → p.WritesAligned w)

include hparts

theorem writeGeneric_aligned (site : Site) : (p.writeGeneric site v).Aligned := by
  unfold writeGeneric
  split
  case h_1 id fields =>
      split
      · refine .append (.ofBytes (by simp)) (writeFields_aligned ?_ _)
        exact fun _ w hw => hparts w (sizeOf_lt_of_get?_object hw)
      · exact .failed _
  case h_2 => exact .ofBytes (by simp [Wire.bool])
  case h_3 json => exact .ofBytes (json.length_encode ▸ json.dvd_encodedSize)
  case h_4 items =>
      refine .append (.ofBytes ?_) (writeGenericItems_aligned ?_ site)
      · rw [Wire.length_vectorHeader]
        decide
      · exact fun item hitem => hparts item (sizeOf_lt_of_mem_vector hitem)
  case h_5 => exact .failed _

theorem writeTyped_aligned (site : Site) (type : TypeExpr) :
    (p.writeTyped site type v).Aligned := by
  induction type with
  | primitive kind =>
      by_cases hkind : kind = .object
      · subst hkind
        rw [writeTyped]
        exact writeGeneric_aligned hparts site
      · rw [writeTyped_primitive hkind]
        exact writePrimitive_aligned site kind v
  | flag flag inner ih =>
      rw [writeTyped]
      exact ih
  | var name =>
      rw [writeTyped]
      split
      · exact writeGeneric_aligned hparts site
      · exact .failed _
  | vector inner boxed ih =>
      cases v with
      | vector items =>
          rw [writeTyped]
          refine .append (.ofBytes ?_) (writeItems_aligned ?_ site inner)
          · cases boxed <;> simp [Wire.length_vectorHeader, Wire.length_count]
          · exact fun item hitem => hparts item (sizeOf_lt_of_mem_vector hitem)
      | _ =>
          rw [writeTyped.eq_def]
          exact .failed _
  | named name bare =>
      cases v with
      | object id fields =>
          have hbody (d : DeclarationPlan) : (p.writeFields d fields d.layout.fields).Aligned :=
            writeFields_aligned (fun _ w hw => hparts w (sizeOf_lt_of_get?_object hw)) _
          rw [writeTyped.eq_def]
          cases bare with
          | true =>
              simp only
              split
              · exact hbody _
              · exact .failed _
          | false =>
              simp only
              split
              · exact .append (.ofBytes (by simp)) (hbody _)
              · exact .failed _
      | _ =>
          rw [writeTyped.eq_def]
          cases bare <;> exact .failed _

end

theorem writesAligned (p : PlanSet) (v : Value) : p.WritesAligned v := by
  have hparts : ∀ w, sizeOf w < sizeOf v → p.WritesAligned w := fun w _ => writesAligned p w
  exact ⟨writeGeneric_aligned hparts, writeTyped_aligned hparts⟩
termination_by sizeOf v

/-! ## Reading -/

section

variable {generic : Decoding Value} {body : DeclarationPlan → Decoding Value}

theorem readPrimitive_aligned (hgeneric : Aligned generic) (kind : Primitive) :
    Aligned (readPrimitive generic kind) := by
  cases kind with
  | int => exact (wire_aligned Wire.Read.int32_aligned).map _
  | long => exact (wire_aligned Wire.Read.int64_aligned).map _
  | double => exact (wire_aligned Wire.Read.uint64_aligned).map _
  | bool => exact (wire_aligned Wire.Read.bool_aligned).map _
  | trueLiteral => exact .pure _
  | bytes => exact (wire_aligned Wire.Read.payload_aligned).map _
  | string => exact (wire_aligned Wire.Read.string_aligned).map _
  | int128 => exact (wire_aligned (.of_taken (Wire.Read.raw_yields 16) (by decide))).map _
  | int256 => exact (wire_aligned (.of_taken (Wire.Read.raw_yields 32) (by decide))).map _
  | json => exact (wire_aligned JsonValue.read_aligned).map _
  | flags => exact (wire_aligned Wire.Read.int32_aligned).map _
  | object => exact hgeneric

theorem readTyped_aligned (hbody : ∀ d, Aligned (body d)) (hgeneric : Aligned generic)
    (site : Site) (type : TypeExpr) : Aligned (readTyped p body generic site type) := by
  induction type with
  | primitive kind => exact readPrimitive_aligned hgeneric kind
  | flag flag inner ih => exact ih
  | var name => exact hgeneric
  | vector inner boxed ih =>
      rw [readTyped_vector]
      refine .bind (.ite (wire_aligned (Wire.Read.id_aligned _)) (.pure _)) fun _ => ?_
      refine (wire_aligned Wire.Read.count_aligned).bind fun n => ?_
      exact (ih.items n).bind fun _ => .pure _
  | named name bare =>
      cases bare with
      | true => exact (ofExcept_aligned _).bind hbody
      | false =>
          refine (wire_aligned Wire.Read.uint32_aligned).bind fun id => ?_
          exact (ofExcept_aligned _).bind hbody

theorem readFields_aligned {read : FieldPlan → Decoding Value} (hread : ∀ f, Aligned (read f))
    (words : List (String × UInt32)) (fields : Fields) (todo : List FieldPlan) :
    Aligned (readFields read words fields todo) := by
  induction todo generalizing words fields with
  | nil => exact .pure _
  | cons f rest ih =>
      cases hkind : f.kind with
      | flagsWord unused =>
          rw [readFields_word hkind]
          exact (wire_aligned Wire.Read.uint32_aligned).bind fun _ => ih _ _
      | trueBit =>
          rw [readFields_bit hkind]
          exact ih _ _
      | _ =>
          rw [readFields_value (by simp [hkind])]
          exact .ite ((hread f).bind fun _ => ih _ _) (ih _ _)

end

theorem readGeneric_succ_aligned {depth : Nat} (hgeneric : Aligned (readGeneric p depth))
    (hbody : ∀ d, Aligned (readBody p depth d)) : Aligned (readGeneric p (depth + 1)) := by
  have hpeek : Aligned Wire.Read.peekUInt32 :=
    .of_taken Wire.Read.peekUInt32_yields (Nat.dvd_zero 4)
  have hskip : Aligned (Wire.Read.skip 4) := .of_taken (Wire.Read.skip_yields 4) (Nat.dvd_refl 4)
  have hget : Aligned (get : Decoding Wire.Cursor) :=
    .of_taken Decoding.get_yields (Nat.dvd_zero 4)
  have hlongs := ((wire_aligned Wire.Read.int64_aligned).map Value.long).items
  have hints := ((wire_aligned Wire.Read.int32_aligned).map Value.int).items
  rw [readGeneric]
  refine (wire_aligned hpeek).bind fun id => ?_
  refine .ite ((wire_aligned Wire.Read.bool_aligned).bind fun _ => .pure _) ?_
  refine .ite ?_ (.ite ((wire_aligned JsonValue.read_aligned).bind fun _ => .pure _) ?_)
  · refine (wire_aligned hskip).bind fun _ => ?_
    refine (wire_aligned Wire.Read.count_aligned).bind fun n => hget.bind fun _ => ?_
    refine .ite ((hlongs n).bind fun _ => .pure _) ?_
    exact .ite ((hints n).bind fun _ => .pure _) ((hgeneric.items n).bind fun _ => .pure _)
  · refine (wire_aligned Wire.Read.uint32_aligned).bind fun id => ?_
    exact (ofExcept_aligned _).bind hbody

theorem reads_aligned (p : PlanSet) (depth : Nat) :
    Aligned (readGeneric p depth) ∧ ∀ d, Aligned (readBody p depth d) := by
  induction depth with
  | zero =>
      refine ⟨?_, fun d => ?_⟩
      · rw [readGeneric]
        exact .throw _
      · rw [readBody]
        exact .throw _
  | succ depth ih =>
      obtain ⟨hgeneric, hbody⟩ := ih
      refine ⟨readGeneric_succ_aligned hgeneric hbody, fun d => ?_⟩
      rw [readBody_succ]
      refine (readFields_aligned (fun f => ?_) [] [] _).bind fun _ => .pure _
      exact readTyped_aligned hbody hgeneric _ _

def readResult (p : PlanSet) (depth : Nat) (d : DeclarationPlan) : Decoding Value :=
  readTyped p (readBody p depth) (readGeneric p depth) ⟨d.schemaPrefix, "result"⟩ d.result

theorem decodeResult_eq (p : PlanSet) (id : UInt32) (bytes : List UInt8) :
    p.decodeResult id bytes = (do
      (p.readResult (p.maxDepth bytes.length) (← p.method id)).run bytes) := rfl

/-- The bytes of a value are whole words, and so are those that reading a value has taken, of any
bytes and from anywhere in them. -/
theorem codec_aligned (p : PlanSet) :
    (∀ v bytes, p.encode v = .ok bytes → 4 ∣ bytes.length) ∧
    (∀ c v c', p.decodeFrom c = .ok v c' →
      ∃ taken, taken ≤ c.remaining ∧ c' = c.skip taken ∧ 4 ∣ taken) ∧
    ∀ depth d c v c', p.readResult depth d c = .ok v c' →
      ∃ taken, taken ≤ c.remaining ∧ c' = c.skip taken ∧ 4 ∣ taken := by
  refine ⟨fun v bytes h => ?_, fun c v c' h => ?_, fun depth d c v c' h => ?_⟩
  · have hwritten : 4 ∣ (p.write v).bytes.length := (writesAligned p v).generic .top
    rw [Output.toExcept_eq_ok.mp h] at hwritten
    exact hwritten
  · exact (reads_aligned p (p.maxDepth c.remaining)).1 c v c' h
  · obtain ⟨hgeneric, hbody⟩ := reads_aligned p depth
    exact readTyped_aligned hbody hgeneric _ _ c v c' h

/-- A vector of a number and a truth value is written. What is read stands behind three bytes: a
person with a bit that no field uses, a long header and padding that is not zero, and one without a
name. -/
theorem codec_aligned_people :
    let v : Value := .vector [.int 7, .bool true]
    let bytes := Wire.vectorHeader 2 ++ (Wire.int32 7 ++ Wire.bool true)
    let c : Wire.Cursor := ⟨3,
      [2, 0, 0, 0, 7, 0, 0, 0, 3, 0, 0, 0, 4, 0, 0, 0, 0xfe, 2, 0, 0, 97, 98, 9, 9, 5]⟩
    let named : Value := .object 2
      [("home", .object 1 [("x", .int 3), ("y", .int 4)]), ("name", .string "ab"),
        ("away", .bool true)]
    let c' : Wire.Cursor := ⟨3, [2, 0, 0, 0, 6, 0, 0, 0, 3, 0, 0, 0, 4, 0, 0, 0, 5]⟩
    let nameless : Value := .object 2
      [("home", .object 1 [("x", .int 3), ("y", .int 4)]), ("away", .bool true)]
    (people.encode v = .ok bytes ∧ 4 ∣ bytes.length) ∧
      (people.decodeFrom c = .ok named ⟨27, [5]⟩ ∧
        ∃ taken, taken ≤ c.remaining ∧ ⟨27, [5]⟩ = c.skip taken ∧ 4 ∣ taken) ∧
      people.readResult 3 person c' = .ok nameless ⟨19, [5]⟩ ∧
        ∃ taken, taken ≤ c'.remaining ∧ ⟨19, [5]⟩ = c'.skip taken ∧ 4 ∣ taken := by
  intro v bytes c named c' nameless
  obtain ⟨hwriting, hreading, hresult⟩ := codec_aligned people
  have hencode : people.encode v = .ok bytes := by
    rw [encode, write, writeGeneric, writeGenericItems, writeGenericItems, writeGenericItems,
      writeGeneric]
    · rfl
    all_goals
      intro _ h
      cases h
  have hdecode : people.decodeFrom c = .ok named ⟨27, [5]⟩ := by
    cbv
  have hdecodeResult : people.readResult 3 person c' = .ok nameless ⟨19, [5]⟩ := by
    simp only [c', nameless]
    rfl
  exact ⟨⟨hencode, hwriting v bytes hencode⟩, ⟨hdecode, hreading c named _ hdecode⟩, hdecodeResult,
    hresult 3 person c' nameless _ hdecodeResult⟩

end PlanSet

end TypeLang
