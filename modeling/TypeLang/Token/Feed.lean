/-!
# Byte feeds

A byte source hands out its bytes in reads of its own choosing: a read gives some bytes, is
interrupted and has to be tried again, or fails. A `Feed` keeps the bytes of the last read and
hands them on one at a time. `Feed.next_eq_ok_some` says that this is all that can be seen of the
reads: the bytes come in order and none is lost.
-/

namespace TypeLang

/-- What one read from a byte source gives. No bytes means the end of the input. -/
inductive Delivery where
  | chunk (bytes : List UInt8)
  | interrupted
  | failure (reason : String)
  deriving DecidableEq, Repr

/-- The bytes that reads give up to the end of the input or a failure. -/
def Delivery.bytes : List Delivery → List UInt8
  | [] => []
  | .chunk [] :: _ => []
  | .chunk (b :: bs) :: rest => b :: bs ++ bytes rest
  | .interrupted :: rest => bytes rest
  | .failure _ :: _ => []

def Delivery.failure? : List Delivery → Option String
  | [] => none
  | .chunk [] :: _ => none
  | .chunk (_ :: _) :: rest => failure? rest
  | .interrupted :: rest => failure? rest
  | .failure reason :: _ => some reason

structure Feed where
  /-- Bytes of the last read that were not handed on yet. -/
  unread : List UInt8
  /-- The reads to come; a source that has none left is at its end. -/
  source : List Delivery
  /-- The most bytes that one read may give. A read asks for at least one. -/
  capacity : Nat
  deriving Repr

namespace Feed

def defaultCapacity : Nat := 512

/-- Reads until something other than an interruption comes, and hands on the first byte. What does
not fit into the capacity stays in the source. -/
def read (capacity : Nat) : List Delivery → Except String (Option (UInt8 × Feed))
  | [] => .ok none
  | .chunk [] :: _ => .ok none
  | .chunk (b :: bs) :: rest =>
    match bs.drop (capacity - 1) with
    | [] => .ok (some (b, ⟨bs, rest, capacity⟩))
    | left => .ok (some (b, ⟨bs.take (capacity - 1), .chunk left :: rest, capacity⟩))
  | .interrupted :: rest => read capacity rest
  | .failure reason :: _ => .error reason

/-- The next byte and the feed behind it; `none` at the end of the input. -/
def next (f : Feed) : Except String (Option (UInt8 × Feed)) :=
  match f.unread with
  | b :: rest => .ok (some (b, { f with unread := rest }))
  | [] => read f.capacity f.source

def remaining (f : Feed) : List UInt8 :=
  f.unread ++ Delivery.bytes f.source

theorem read_eq_ok_some {capacity : Nat} {source : List Delivery} {b : UInt8} {g : Feed}
    (h : read capacity source = .ok (some (b, g))) :
    Delivery.bytes source = b :: g.remaining := by
  induction source with
  | nil => simp [read] at h
  | cons delivery rest ih =>
    match delivery with
    | .chunk [] => simp [read] at h
    | .chunk (c :: bs) =>
      have hbs := List.take_append_drop (capacity - 1) bs
      cases hl : bs.drop (capacity - 1) with
      | nil =>
        simp only [read, hl, Except.ok.injEq, Option.some.injEq, Prod.mk.injEq] at h
        obtain ⟨rfl, rfl⟩ := h
        simp [Delivery.bytes, remaining]
      | cons d ds =>
        simp only [read, hl, Except.ok.injEq, Option.some.injEq, Prod.mk.injEq] at h
        obtain ⟨rfl, rfl⟩ := h
        rw [hl] at hbs
        rw [Delivery.bytes, remaining, Delivery.bytes]
        conv => lhs; rw [← hbs]
        simp
    | .interrupted => exact ih h
    | .failure _ => simp [read] at h

theorem next_eq_ok_some {f g : Feed} {b : UInt8} (h : f.next = .ok (some (b, g))) :
    f.remaining = b :: g.remaining := by
  unfold next at h
  split at h
  · rename_i b' rest hu
    simp only [Except.ok.injEq, Option.some.injEq, Prod.mk.injEq] at h
    obtain ⟨rfl, rfl⟩ := h
    simp [remaining, hu]
  · rename_i hu
    simpa [remaining, hu] using read_eq_ok_some h

end Feed

end TypeLang
