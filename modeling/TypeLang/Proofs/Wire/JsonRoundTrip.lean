import Mathlib
import TypeLang.Proofs.Wire.Taking
import TypeLang.Proofs.Wire.Yielding

/-!
# Reading JSON values back

A JSON value whose texts fit their headers and whose arrays and objects have fewer than `2 ^ 31`
entries is read back from its encoding. Reading is bounded in depth by the bytes that remain; each
level of nesting takes four of them, so that the bound is never met. Conversely, whatever is read
from any bytes is such a value, and its encoding is no longer than the bytes it was read from.
-/

namespace TypeLang.JsonValue

open Wire (Takes)

mutual

def Fits : JsonValue → Prop
  | null => True
  | bool _ => True
  | number _ => True
  | string s => s.utf8ByteSize ≤ Wire.maxPayload
  | array items => items.length < 2 ^ 31 ∧ FitsItems items
  | object members => members.length < 2 ^ 31 ∧ FitsMembers members

def FitsItems : List JsonValue → Prop
  | [] => True
  | item :: rest => item.Fits ∧ FitsItems rest

def FitsMembers : List (String × JsonValue) → Prop
  | [] => True
  | (key, value) :: rest =>
    key.utf8ByteSize ≤ Wire.maxPayload ∧ value.Fits ∧ FitsMembers rest

end

theorem counted_takes {α : Type} {read : Wire.Read α} {n : Nat} {bytes : List UInt8}
    {items : List α} (hn : n < 2 ^ 31) (hitems : Takes (Wire.Read.items read n) bytes items)
    (wrap : List α → JsonValue) :
    Takes (do
        Wire.Read.id Wire.vectorId
        let n ← Wire.Read.count
        return wrap (← Wire.Read.items read n))
      (Wire.vectorHeader n ++ bytes) (wrap items) := by
  unfold Wire.vectorHeader
  rw [List.append_assoc]
  apply (Wire.Read.id_takes Wire.vectorId).bind
  apply (Wire.Read.count_takes hn).bind
  exact hitems.bind_pure rfl

mutual

theorem readNested_takes (j : JsonValue) (hfits : j.Fits) (depth : Nat)
    (hdepth : j.encode.length < depth) : Takes (readNested depth) j.encode j := by
  obtain ⟨depth, rfl⟩ : ∃ n, depth = n + 1 := ⟨depth - 1, by omega⟩
  rw [readNested]
  match j with
  | null => exact (Wire.Read.uint32_takes _).bind_pure (if_pos rfl)
  | bool v =>
      apply (Wire.Read.uint32_takes _).bind
      rw [if_neg (by decide), if_pos rfl]
      exact (Wire.Read.bool_takes v).bind_pure rfl
  | number bits =>
      apply (Wire.Read.uint32_takes _).bind
      rw [if_neg (by decide), if_neg (by decide), if_pos rfl]
      exact (Wire.Read.uint64_takes bits).bind_pure rfl
  | string s =>
      apply (Wire.Read.uint32_takes _).bind
      rw [if_neg (by decide), if_neg (by decide), if_neg (by decide), if_pos rfl]
      exact (Wire.Read.string_takes hfits).bind_pure rfl
  | array items =>
      simp only [encode, List.length_append, Wire.length_uint32] at hdepth
      apply (Wire.Read.uint32_takes _).bind
      rw [if_neg (by decide), if_neg (by decide), if_neg (by decide), if_neg (by decide),
        if_pos rfl]
      exact counted_takes hfits.1
        (itemsFrom_readNested_takes items hfits.2 depth (by omega) []) array
  | object members =>
      simp only [encode, List.length_append, Wire.length_uint32] at hdepth
      apply (Wire.Read.uint32_takes _).bind
      rw [if_neg (by decide), if_neg (by decide), if_neg (by decide), if_neg (by decide),
        if_neg (by decide), if_pos rfl]
      exact counted_takes hfits.1
        (itemsFrom_readMember_takes members hfits.2 depth (by omega) []) object

theorem itemsFrom_readNested_takes (items : List JsonValue) (hfits : FitsItems items)
    (depth : Nat) (hdepth : (encodeItems items).length < depth) (done : List JsonValue) :
    Takes (Wire.Read.itemsFrom (readNested depth) items.length done) (encodeItems items)
      (done.reverse ++ items) := by
  match items with
  | [] => simpa [encodeItems] using Wire.Read.itemsFrom_takes_nil done
  | item :: rest =>
      simp only [encodeItems, List.length_append] at hdepth
      have hitem := readNested_takes item hfits.1 depth (by omega)
      have hrest := itemsFrom_readNested_takes rest hfits.2 depth (by omega) (item :: done)
      rw [List.reverse_cons, List.append_assoc] at hrest
      exact Wire.Read.itemsFrom_takes_cons hitem hrest

theorem itemsFrom_readMember_takes (members : List (String × JsonValue))
    (hfits : FitsMembers members) (depth : Nat) (hdepth : (encodeMembers members).length < depth)
    (done : List (String × JsonValue)) :
    Takes (Wire.Read.itemsFrom (readMember (readNested depth)) members.length done)
      (encodeMembers members) (done.reverse ++ members) := by
  match members with
  | [] => simpa [encodeMembers] using Wire.Read.itemsFrom_takes_nil done
  | (key, value) :: rest =>
      simp only [encodeMembers, List.length_append] at hdepth
      have hvalue := readNested_takes value hfits.2.1 depth (by omega)
      have hmember : Takes (readMember (readNested depth))
          (Wire.uint32 Wire.jsonObjectValueId ++ (Wire.string key ++ value.encode))
          (key, value) := by
        apply (Wire.Read.id_takes _).bind
        apply (Wire.Read.string_takes hfits.1).bind
        exact hvalue.bind_pure rfl
      have hrest := itemsFrom_readMember_takes rest hfits.2.2 depth (by omega)
        ((key, value) :: done)
      rw [List.reverse_cons, List.append_assoc] at hrest
      simpa [encodeMembers] using Wire.Read.itemsFrom_takes_cons hmember hrest

end

theorem read_takes {j : JsonValue} (hfits : j.Fits) : Takes read j.encode j := by
  intro position rest
  refine readNested_takes j hfits _ ?_ position rest
  simp only [Wire.Cursor.remaining, List.length_append]
  omega

/-! ## What is read -/

theorem fitsItems_iff (items : List JsonValue) : FitsItems items ↔ ∀ item ∈ items, item.Fits := by
  induction items with
  | nil => simp [FitsItems]
  | cons item items ih => simp [FitsItems, ih]

theorem fitsMembers_iff (members : List (String × JsonValue)) :
    FitsMembers members ↔
      ∀ m ∈ members, m.1.utf8ByteSize ≤ Wire.maxPayload ∧ m.2.Fits := by
  induction members with
  | nil => simp [FitsMembers]
  | cons m members ih => simp [FitsMembers, ih, and_assoc]

theorem itemsSize_eq_sum (items : List JsonValue) :
    itemsSize items = (items.map encodedSize).sum := by
  induction items with
  | nil => rfl
  | cons item items ih => rw [itemsSize, ih, List.map_cons, List.sum_cons]

def memberSize (m : String × JsonValue) : Nat :=
  4 + Wire.payloadSize m.1.utf8ByteSize + m.2.encodedSize

theorem membersSize_eq_sum (members : List (String × JsonValue)) :
    membersSize members = (members.map memberSize).sum := by
  induction members with
  | nil => rfl
  | cons m members ih => rw [membersSize, ih, List.map_cons, List.sum_cons, memberSize]

theorem counted_yields {α : Type} {read : Wire.Read α} {good : α → Prop} {size : α → Nat}
    (hread : Wire.Yields read fun x taken => good x ∧ size x ≤ taken) (wrap : List α → JsonValue) :
    Wire.Yields (do
        Wire.Read.id Wire.vectorId
        let n ← Wire.Read.count
        return wrap (← Wire.Read.items read n))
      fun j taken => ∃ xs : List α, j = wrap xs ∧ xs.length < 2 ^ 31 ∧ (∀ x ∈ xs, good x) ∧
        8 + (xs.map size).sum ≤ taken := by
  apply (Wire.Read.id_yields _).bind
  rintro _ _ rfl
  apply Wire.Read.count_yields.bind
  rintro n _ ⟨hn, rfl⟩
  apply (Wire.Read.items_yields_le hread n).bind_pure
  rintro xs taken ⟨rfl, hgood, hsum⟩
  exact ⟨xs, rfl, hn, hgood, by omega⟩

theorem readMember_yields {read : Wire.Read JsonValue}
    (hread : Wire.Yields read fun j taken => j.Fits ∧ j.encodedSize ≤ taken) :
    Wire.Yields (readMember read) fun m taken =>
      (m.1.utf8ByteSize ≤ Wire.maxPayload ∧ m.2.Fits) ∧ memberSize m ≤ taken := by
  apply (Wire.Read.id_yields _).bind
  rintro _ _ rfl
  apply Wire.Read.string_yields.bind
  rintro key _ ⟨hkey, hsize⟩
  apply hread.bind_pure
  rintro value taken ⟨hvalue, hle⟩
  refine ⟨⟨hkey, hvalue⟩, ?_⟩
  unfold memberSize
  simp only
  omega

theorem readNested_yields (depth : Nat) :
    Wire.Yields (readNested depth) fun j taken => j.Fits ∧ j.encodedSize ≤ taken := by
  induction depth with
  | zero => exact .throw _
  | succ depth ih =>
      rw [readNested]
      apply Wire.Read.uint32_yields.bind
      rintro id _ rfl
      refine .ite (fun _ => .pure ⟨trivial, Nat.le_refl 4⟩) fun _ => ?_
      refine .ite (fun _ => Wire.Read.bool_yields.bind_pure ?_) fun _ => ?_
      · rintro v _ rfl
        exact ⟨trivial, Nat.le_refl 8⟩
      refine .ite (fun _ => Wire.Read.uint64_yields.bind_pure ?_) fun _ => ?_
      · rintro bits _ rfl
        exact ⟨trivial, Nat.le_refl 12⟩
      refine .ite (fun _ => Wire.Read.string_yields.bind_pure ?_) fun _ => ?_
      · rintro text taken ⟨htext, hsize⟩
        exact ⟨htext, Nat.add_le_add_left hsize 4⟩
      refine .ite (fun _ => (counted_yields ih array).mono ?_) fun _ => ?_
      · rintro _ taken ⟨items, rfl, hlength, hgood, hsum⟩
        refine ⟨⟨hlength, (fitsItems_iff items).mpr hgood⟩, ?_⟩
        rw [encodedSize, itemsSize_eq_sum]
        omega
      refine .ite (fun _ => ?_) fun _ => .throw _
      · apply (counted_yields (readMember_yields ih) object).mono
        rintro _ taken ⟨members, rfl, hlength, hgood, hsum⟩
        refine ⟨⟨hlength, (fitsMembers_iff members).mpr hgood⟩, ?_⟩
        rw [encodedSize, membersSize_eq_sum]
        omega

theorem read_yields : Wire.Yields read fun j taken => j.Fits ∧ j.encode.length ≤ taken := by
  intro c j c' h
  simp only [length_encode]
  exact readNested_yields _ c j c' h

end TypeLang.JsonValue
