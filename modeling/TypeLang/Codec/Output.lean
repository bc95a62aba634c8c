import TypeLang.Codec.Error

/-!
# Output

What a writer has written, and why it stopped, if it did. Outputs are put one behind the other; what
stands behind a failure is not written, and what stands in front of it stays.
-/

namespace TypeLang

structure Output where
  bytes : List UInt8
  failure : Option CodecError
  deriving DecidableEq, Repr

namespace Output

def ofBytes (bytes : List UInt8) : Output := ⟨bytes, none⟩

def empty : Output := ofBytes []

def failed (e : CodecError) : Output := ⟨[], some e⟩

def append (a b : Output) : Output :=
  match a.failure with
  | some _ => a
  | none => ⟨a.bytes ++ b.bytes, b.failure⟩

instance : Append Output := ⟨append⟩

def toExcept (o : Output) : Except CodecError (List UInt8) :=
  match o.failure with
  | some e => .error e
  | none => .ok o.bytes

@[simp] theorem failed_append (e : CodecError) (o : Output) : failed e ++ o = failed e := rfl

theorem ofBytes_append (bytes : List UInt8) (o : Output) :
    ofBytes bytes ++ o = ⟨bytes ++ o.bytes, o.failure⟩ := rfl

@[simp] theorem empty_append (o : Output) : empty ++ o = o := rfl

@[simp] theorem append_empty (o : Output) : o ++ empty = o := by
  obtain ⟨bytes, _ | e⟩ := o
  · show (⟨bytes ++ [], none⟩ : Output) = _
    rw [List.append_nil]
  · rfl

theorem append_assoc (a b c : Output) : a ++ b ++ c = a ++ (b ++ c) := by
  obtain ⟨as, _ | e⟩ := a
  · obtain ⟨bs, _ | e⟩ := b
    · show (⟨as ++ bs ++ c.bytes, c.failure⟩ : Output) = ⟨as ++ (bs ++ c.bytes), c.failure⟩
      rw [List.append_assoc]
    · rfl
  · rfl

@[simp] theorem ofBytes_append_ofBytes (a b : List UInt8) :
    ofBytes a ++ ofBytes b = ofBytes (a ++ b) := rfl

@[simp] theorem ofBytes_inj {a b : List UInt8} : ofBytes a = ofBytes b ↔ a = b := by
  simp [ofBytes]

@[simp] theorem failed_ne_ofBytes (e : CodecError) (bytes : List UInt8) :
    failed e ≠ ofBytes bytes := by
  simp [failed, ofBytes]

theorem append_eq_ofBytes {a b : Output} {bytes : List UInt8} :
    a ++ b = ofBytes bytes ↔
      ∃ front back, a = ofBytes front ∧ b = ofBytes back ∧ bytes = front ++ back := by
  constructor
  · intro h
    obtain ⟨front, _ | e⟩ := a
    · obtain ⟨back, failure⟩ := b
      cases h
      exact ⟨front, back, rfl, rfl, rfl⟩
    · cases h
  · rintro ⟨front, back, rfl, rfl, rfl⟩
    rfl

theorem length_append_le (a b : Output) :
    (a ++ b).bytes.length ≤ a.bytes.length + b.bytes.length := by
  obtain ⟨front, _ | e⟩ := a
  · exact Nat.le_of_eq List.length_append
  · exact Nat.le_add_right ..

theorem length_ofBytes_append (bytes : List UInt8) (o : Output) :
    (ofBytes bytes ++ o).bytes.length = bytes.length + o.bytes.length :=
  List.length_append

theorem toExcept_eq_ok {o : Output} {bytes : List UInt8} :
    o.toExcept = .ok bytes ↔ o = ofBytes bytes := by
  obtain ⟨written, _ | e⟩ := o <;> simp [toExcept, ofBytes]

theorem toExcept_eq_error {o : Output} {e : CodecError} :
    o.toExcept = .error e ↔ o.failure = some e := by
  obtain ⟨written, _ | e⟩ := o <;> simp [toExcept]

end Output

end TypeLang
