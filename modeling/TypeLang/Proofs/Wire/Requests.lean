import TypeLang.Proofs.Wire.Yielding
import TypeLang.Wire.WireType

/-!
# Asking a cursor for one thing after the other

A caller may ask a cursor for anything, in any order, and go on where the last reading stopped, also
behind an error. `Advances` says of a reader that it stops further on in the bytes that are left,
whether it gives a value or not; it composes along `>>=`. So a run of requests never leaves the
bytes that the cursor was made for (`Request.run_within`).
-/

namespace TypeLang.Wire

/-! ## Where readers stop -/

/-- Where a reading stops, with a value or with an error. -/
def stop {ε α : Type} : EStateM.Result ε Cursor α → Cursor
  | .ok _ c => c
  | .error _ c => c

/-- The reader stops at its start or further on, and within the bytes that are left. -/
def Advances {ε α : Type} (read : EStateM ε Cursor α) : Prop :=
  ∀ c, ∃ n ≤ c.remaining, stop (read c) = c.skip n

def AllOrNothing {ε α : Type} (read : EStateM ε Cursor α) : Prop :=
  ∀ c e c', read c = .error e c' → c' = c

section

variable {ε α β : Type} {read : EStateM ε Cursor α} {next : α → EStateM ε Cursor β}

namespace Advances

theorem pure (x : α) : Advances (Pure.pure x : EStateM ε Cursor α) :=
  fun c => ⟨0, Nat.zero_le _, c.skip_zero.symm⟩

theorem throw (e : ε) : Advances (throw e : EStateM ε Cursor α) :=
  fun c => ⟨0, Nat.zero_le _, c.skip_zero.symm⟩

theorem bind (hread : Advances read) (hnext : ∀ x, Advances (next x)) :
    Advances (read >>= next) := by
  intro c
  obtain ⟨m, hm, hstop⟩ := hread c
  show ∃ n ≤ c.remaining, stop (EStateM.bind read next c) = c.skip n
  rw [EStateM.bind]
  cases h : read c with
  | error e c' =>
      rw [h] at hstop
      exact ⟨m, hm, hstop⟩
  | ok x c' =>
      rw [h] at hstop
      obtain rfl : c' = c.skip m := hstop
      obtain ⟨n, hn, hstop'⟩ := hnext x (c.skip m)
      rw [Cursor.remaining_skip] at hn
      exact ⟨m + n, by omega, hstop'.trans (c.skip_skip m n)⟩

theorem ite {p : Prop} [Decidable p] {first second : EStateM ε Cursor α} (hfirst : Advances first)
    (hsecond : Advances second) : Advances (if p then first else second) := by
  split
  · exact hfirst
  · exact hsecond

/-- A reader that takes bytes if it gives a value and none if it fails. -/
theorem of_yields {good : α → Nat → Prop} (hyields : Yields read good)
    (hfails : AllOrNothing read) : Advances read := by
  intro c
  cases h : read c with
  | error e c' =>
      obtain rfl := hfails c e c' h
      exact ⟨0, Nat.zero_le _, c'.skip_zero.symm⟩
  | ok x c' =>
      obtain ⟨n, hn, hstop, -⟩ := hyields c x c' h
      exact ⟨n, hn, hstop⟩

theorem items (hread : Advances read) (n : Nat) : Advances (Read.items read n) := by
  -- On the number of items that are left, whatever has been read.
  have hfrom : ∀ done, Advances (Read.itemsFrom read n done) := by
    induction n with
    | zero => exact fun done => .pure done.reverse
    | succ n ih =>
        intro done
        rw [Read.itemsFrom_succ]
        exact hread.bind fun item => ih (item :: done)
  exact hfrom []

end Advances

theorem AllOrNothing.bind_pure (hread : AllOrNothing read) (f : α → β) :
    AllOrNothing (read >>= fun x => Pure.pure (f x)) := by
  intro c e c' h
  change EStateM.bind read _ c = _ at h
  rw [EStateM.bind] at h
  cases hc : read c with
  | ok x c'' =>
      rw [hc] at h
      cases h
  | error e' c'' =>
      rw [hc] at h
      cases h
      exact hread c e c' hc

end

namespace Read

/-! ## Bytes that are read at once -/

theorem take_allOrNothing (n : Nat) : AllOrNothing (take n) := by
  intro c e c' h
  rw [take_eq] at h
  split at h
  · cases h
  · cases h
    rfl

theorem byte_allOrNothing : AllOrNothing byte := by
  rintro ⟨position, _ | ⟨b, rest⟩⟩ e c' h
  · cases h
    rfl
  · cases h

theorem raw_allOrNothing (n : Nat) : AllOrNothing (raw n) := by
  intro c e c' h
  unfold raw at h
  simp only at h
  split at h
  · cases h
  · cases h
    rfl

theorem skip_allOrNothing (n : Nat) : AllOrNothing (skip n) :=
  (take_allOrNothing n).bind_pure _

theorem number_allOrNothing (width : Nat) : AllOrNothing (number width) :=
  (take_allOrNothing width).bind_pure _

theorem uint32_allOrNothing : AllOrNothing uint32 :=
  (number_allOrNothing 4).bind_pure _

theorem int32_allOrNothing : AllOrNothing int32 :=
  uint32_allOrNothing.bind_pure _

theorem uint64_allOrNothing : AllOrNothing uint64 :=
  (number_allOrNothing 8).bind_pure _

theorem int64_allOrNothing : AllOrNothing int64 :=
  uint64_allOrNothing.bind_pure _

theorem stop_peekUInt32 (c : Cursor) : stop (peekUInt32 c) = c := by
  unfold peekUInt32
  cases uint32 c <;> rfl

theorem take_advances (n : Nat) : Advances (take n) :=
  .of_yields (take_yields n) (take_allOrNothing n)

theorem byte_advances : Advances byte :=
  .of_yields byte_yields byte_allOrNothing

theorem raw_advances (n : Nat) : Advances (raw n) :=
  .of_yields (raw_yields n) (raw_allOrNothing n)

theorem skip_advances (n : Nat) : Advances (skip n) :=
  .of_yields (skip_yields n) (skip_allOrNothing n)

theorem number_advances (width : Nat) : Advances (number width) :=
  .of_yields (number_yields width) (number_allOrNothing width)

theorem uint32_advances : Advances uint32 :=
  .of_yields uint32_yields uint32_allOrNothing

theorem int32_advances : Advances int32 :=
  .of_yields int32_yields int32_allOrNothing

theorem uint64_advances : Advances uint64 :=
  .of_yields uint64_yields uint64_allOrNothing

theorem int64_advances : Advances int64 :=
  .of_yields int64_yields int64_allOrNothing

theorem peekUInt32_advances : Advances peekUInt32 :=
  fun c => ⟨0, Nat.zero_le _, (stop_peekUInt32 c).trans c.skip_zero.symm⟩

/-! ## Bytes that are read in parts -/

theorem bool_advances : Advances bool :=
  uint32_advances.bind fun _ => .ite (.pure _) (.ite (.pure _) (.throw _))

private theorem body_advances (header length : Nat) :
    Advances (do
      let payload ← take length
      skip (padding (header + length))
      return payload) :=
  (take_advances length).bind fun bytes => (skip_advances _).bind fun _ => .pure bytes

theorem payload_advances : Advances payload := by
  refine byte_advances.bind fun first => .ite (.throw _) ?_
  by_cases hlong : first = 0xfe
  · rw [if_pos hlong]
    refine (number_advances 3).bind fun length => ?_
    rw [pure_bind]
    exact body_advances 4 length
  · rw [if_neg hlong, pure_bind]
    exact body_advances 1 first.toNat

theorem string_advances : Advances string := by
  refine payload_advances.bind fun bytes => ?_
  split
  · exact .pure _
  · exact .throw _

theorem count_advances : Advances count :=
  int32_advances.bind fun _ => .ite (.pure _) (.throw _)

theorem id_advances (expected : UInt32) : Advances (id expected) :=
  uint32_advances.bind fun _ => .ite (.pure _) (.throw _)

end Read

end TypeLang.Wire

namespace TypeLang

open Wire (Advances)

theorem JsonValue.readNested_advances (depth : Nat) : Advances (readNested depth) := by
  induction depth with
  | zero => exact .throw _
  | succ depth ih =>
      have hmember : Advances (readMember (readNested depth)) :=
        (Wire.Read.id_advances _).bind fun _ =>
          Wire.Read.string_advances.bind fun key => ih.bind fun value => .pure (key, value)
      have hcounted {α : Type} {read : Wire.Read α} (hread : Advances read)
          (wrap : List α → JsonValue) : Advances (do
            Wire.Read.id Wire.vectorId
            let n ← Wire.Read.count
            return wrap (← Wire.Read.items read n)) :=
        (Wire.Read.id_advances _).bind fun _ =>
          Wire.Read.count_advances.bind fun n => (hread.items n).bind fun xs => .pure (wrap xs)
      rw [readNested]
      refine Wire.Read.uint32_advances.bind fun id => .ite (.pure _) ?_
      refine .ite (Wire.Read.bool_advances.bind fun _ => .pure _) ?_
      refine .ite (Wire.Read.uint64_advances.bind fun _ => .pure _) ?_
      refine .ite (Wire.Read.string_advances.bind fun _ => .pure _) ?_
      exact .ite (hcounted ih array) (.ite (hcounted hmember object) (.throw _))

theorem JsonValue.read_advances : Advances read :=
  fun c => readNested_advances (c.remaining + 1) c

theorem WireType.read_advances (t : WireType) : Advances t.read := by
  -- On the type: a vector stays within the bytes if its items do, whatever their type.
  induction t with
  | int => exact Wire.Read.int32_advances
  | uint => exact Wire.Read.uint32_advances
  | long => exact Wire.Read.int64_advances
  | double => exact Wire.Read.uint64_advances
  | bool => exact Wire.Read.bool_advances
  | bytes => exact Wire.Read.payload_advances
  | string => exact Wire.Read.string_advances
  | int128 => exact Wire.Read.raw_advances 16
  | int256 => exact Wire.Read.raw_advances 32
  | json => exact JsonValue.read_advances
  | boxed item ih =>
      exact (Wire.Read.id_advances _).bind fun _ =>
        Wire.Read.count_advances.bind fun n => ih.items n
  | bare item ih => exact Wire.Read.count_advances.bind fun n => ih.items n

end TypeLang

namespace TypeLang.Wire

/-! ## Requests -/

inductive Request where
  /-- A value of a wire type. -/
  | value (type : WireType)
  /-- The number in front, which stays unread. -/
  | peek
  | byte
  /-- The number of items of a vector. -/
  | count
  /-- The identifier of a boxed vector. -/
  | vectorId
  /-- To pass over some bytes. -/
  | skip (n : Nat)
  /-- Some bytes as they are. -/
  | exact (n : Nat)
  deriving DecidableEq, Repr

namespace Request

@[reducible] def Answer : Request → Type
  | value t => t.Carrier
  | peek => UInt32
  | byte => UInt8
  | count => Nat
  | vectorId => Unit
  | skip _ => Unit
  | exact _ => List UInt8

def read : (r : Request) → Read r.Answer
  | value t => t.read
  | peek => Read.peekUInt32
  | byte => Read.byte
  | count => Read.count
  | vectorId => Read.id Wire.vectorId
  | skip n => Read.skip n
  | exact n => Read.take n

/-- The bytes of the request are read at once: it is for bytes as such, for a number, or for a
number that is left as bytes. -/
def IsChunk : Request → Prop
  | value .int => True
  | value .uint => True
  | value .long => True
  | value .double => True
  | value .int128 => True
  | value .int256 => True
  | byte => True
  | skip _ => True
  | exact _ => True
  | _ => False

def after (r : Request) (c : Cursor) : Cursor :=
  stop (r.read c)

def Fails (r : Request) (c : Cursor) : Prop :=
  ∃ e c', r.read c = .error e c'

/-- Where a run of requests leaves a cursor. An error does not end the run. -/
def run (requests : List Request) (c : Cursor) : Cursor :=
  requests.foldl (fun c r => r.after c) c

theorem read_advances (r : Request) : Advances r.read := by
  cases r with
  | value t => exact t.read_advances
  | peek => exact Read.peekUInt32_advances
  | byte => exact Read.byte_advances
  | count => exact Read.count_advances
  | vectorId => exact Read.id_advances _
  | skip n => exact Read.skip_advances n
  | exact n => exact Read.take_advances n

theorem read_allOrNothing {r : Request} (h : r.IsChunk) : AllOrNothing r.read := by
  cases r with
  | value t =>
      cases t with
      | int => exact Read.int32_allOrNothing
      | uint => exact Read.uint32_allOrNothing
      | long => exact Read.int64_allOrNothing
      | double => exact Read.uint64_allOrNothing
      | int128 => exact Read.raw_allOrNothing 16
      | int256 => exact Read.raw_allOrNothing 32
      | _ => exact h.elim
  | byte => exact Read.byte_allOrNothing
  | skip n => exact Read.skip_allOrNothing n
  | exact n => exact Read.take_allOrNothing n
  | _ => exact h.elim

end Request

/-- The cursor stands in the bytes that it was made for, in front of those that were not read. -/
structure Cursor.Within (bytes : List UInt8) (c : Cursor) : Prop where
  position_le : c.position ≤ bytes.length
  rest : c.rest = bytes.drop c.position

namespace Cursor.Within

variable {bytes : List UInt8} {c : Cursor}

theorem ofBytes (bytes : List UInt8) : (Cursor.ofBytes bytes).Within bytes :=
  ⟨Nat.zero_le _, rfl⟩

theorem position_add_remaining (h : c.Within bytes) : c.position + c.remaining = bytes.length := by
  have hle := h.position_le
  rw [remaining, h.rest, List.length_drop]
  omega

theorem skip (h : c.Within bytes) {n : Nat} (hn : n ≤ c.remaining) : (c.skip n).Within bytes := by
  have hlength := h.position_add_remaining
  constructor
  · show c.position + n ≤ bytes.length
    omega
  · show c.rest.drop n = bytes.drop (c.position + n)
    rw [h.rest, List.drop_drop]

theorem after (h : c.Within bytes) (r : Request) : (r.after c).Within bytes := by
  obtain ⟨n, hn, hstop⟩ := r.read_advances c
  rw [Request.after, hstop]
  exact h.skip hn

theorem run (h : c.Within bytes) (requests : List Request) :
    (Request.run requests c).Within bytes := by
  induction requests generalizing c with
  | nil => exact h
  | cons r requests ih => exact ih (h.after r)

end Cursor.Within

namespace Request

theorem position_le_after (r : Request) (c : Cursor) : c.position ≤ (r.after c).position := by
  obtain ⟨n, -, hstop⟩ := r.read_advances c
  rw [after, hstop]
  exact Nat.le_add_right c.position n

theorem after_of_fails {r : Request} (hchunk : r.IsChunk) {c : Cursor} (h : r.Fails c) :
    r.after c = c := by
  obtain ⟨e, c', herror⟩ := h
  rw [after, herror]
  exact read_allOrNothing hchunk c e c' herror

/-- Whatever was asked for before, in any order and also behind errors: a request leaves the cursor
within its bytes and not in front of where it stood, with the bytes behind the position left.
Looking ahead moves nothing, and neither does a request for bytes at once that fails. -/
theorem run_within (bytes : List UInt8) (before : List Request) (r : Request) :
    let c := run before (.ofBytes bytes)
    let c' := r.after c
    c'.position ≤ bytes.length ∧ c.position ≤ c'.position ∧
      c'.position + c'.remaining = bytes.length ∧ c'.rest = bytes.drop c'.position ∧
      (r = peek → c' = c) ∧ (r.IsChunk → r.Fails c → c' = c) := by
  intro c c'
  have hc : c.Within bytes := (Cursor.Within.ofBytes bytes).run before
  have hc' : c'.Within bytes := hc.after r
  refine ⟨hc'.position_le, r.position_le_after c, hc'.position_add_remaining, hc'.rest, ?_,
    fun hchunk hfails => after_of_fails hchunk hfails⟩
  intro hpeek
  subst hpeek
  exact Read.stop_peekUInt32 c

/-- A text that is cut short is left behind its header, and a number that is cut short where it is.
There is still a byte to pass over then. -/
example : run [.value .string, .value .int, .skip 1] (.ofBytes [3, 97, 98]) = ⟨2, [98]⟩ := by
  decide

end Request

end TypeLang.Wire
