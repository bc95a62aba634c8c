import TypeLang.Proofs.Wire.Taking
import TypeLang.Proofs.Wire.Yielding

/-!
# Reading no further than needed

`Spans eof read bytes value` says that a reader looks at some bytes and at nothing behind them: it
takes them whatever follows, and where they are cut short it fails with `eof`, before it can find
anything else wrong. A reader is `Local` if all that it ever takes is taken so. Both compose along
`>>=`, like the other relations between readers and bytes.

JSON values are read to a depth that the remaining bytes bound. `readNested_eqWithin` says that
every greater depth gives the same, errors included, so that reading them is local all the same.
-/

namespace TypeLang.Wire

variable {ε α β : Type} {eof : ε}

theorem Cursor.eq_of_skip_eq {c : Cursor} {m n : Nat} (h : c.skip m = c.skip n) : m = n :=
  Nat.add_left_cancel (congrArg Cursor.position h)

/-- `read` gives `value` and takes exactly `bytes`, whatever stands behind them, and misses the rest
of them if only a part is there. -/
structure Spans (eof : ε) (read : EStateM ε Cursor α) (bytes : List UInt8) (value : α) : Prop where
  takes : Takes read bytes value
  short : ∀ m < bytes.length, ∀ position,
    ∃ stop, read ⟨position, bytes.take m⟩ = .error eof stop

def Local (eof : ε) (read : EStateM ε Cursor α) : Prop :=
  ∀ c x c', read c = .ok x c' →
    ∃ n, n ≤ c.remaining ∧ c' = c.skip n ∧ Spans eof read (c.rest.take n) x

theorem bind_eq_error {read : EStateM ε Cursor α} {next : α → EStateM ε Cursor β} {c stop : Cursor}
    {e : ε} (h : read c = .error e stop) : (read >>= next) c = .error e stop := by
  show EStateM.bind read next c = _
  rw [EStateM.bind, h]

theorem bind_of_eq_ok {read : EStateM ε Cursor α} {next : α → EStateM ε Cursor β} {c c' : Cursor}
    {x : α} (h : read c = .ok x c') : (read >>= next) c = next x c' := by
  show EStateM.bind read next c = _
  rw [EStateM.bind, h]

namespace Spans

variable {read : EStateM ε Cursor α} {next : α → EStateM ε Cursor β} {bytes more : List UInt8}
  {x : α} {y : β}

theorem pure (x : α) : Spans eof (Pure.pure x : EStateM ε Cursor α) [] x :=
  ⟨Takes.pure x, fun _ hm => absurd hm (Nat.not_lt_zero _)⟩

theorem bind (hread : Spans eof read bytes x) (hnext : Spans eof (next x) more y) :
    Spans eof (read >>= next) (bytes ++ more) y := by
  refine ⟨hread.takes.bind hnext.takes, fun m hm position => ?_⟩
  -- The bytes are cut in the part of `read` or in that of `next`.
  by_cases hfront : m < bytes.length
  · obtain ⟨stop, hstop⟩ := hread.short m hfront position
    rw [List.take_append_of_le_length (Nat.le_of_lt hfront)]
    exact ⟨stop, bind_eq_error hstop⟩
  · have hback : m - bytes.length < more.length := by
      rw [List.length_append] at hm
      omega
    obtain ⟨stop, hstop⟩ := hnext.short _ hback (position + bytes.length)
    rw [List.take_append, List.take_of_length_le (by omega)]
    exact ⟨stop, (bind_of_eq_ok (hread.takes position _)).trans hstop⟩

end Spans

namespace Local

variable {read : EStateM ε Cursor α} {next : α → EStateM ε Cursor β}

theorem pure (x : α) : Local eof (Pure.pure x : EStateM ε Cursor α) := by
  intro c y c' h
  cases h
  exact ⟨0, Nat.zero_le _, rfl, Spans.pure x⟩

theorem throw (e : ε) : Local eof (throw e : EStateM ε Cursor α) := by
  intro c x c' h
  cases h

theorem bind (hread : Local eof read) (hnext : ∀ x, Local eof (next x)) :
    Local eof (read >>= next) := by
  intro c y c'' h
  obtain ⟨x, c', hx, hy⟩ := bind_eq_ok_iff.mp h
  obtain ⟨m, hm, rfl, hspans⟩ := hread c x c' hx
  obtain ⟨n, hn, rfl, hspans'⟩ := hnext x _ y c'' hy
  rw [Cursor.remaining_skip] at hn
  refine ⟨m + n, by omega, Cursor.skip_skip c m n, ?_⟩
  rw [List.take_add]
  exact hspans.bind hspans'

theorem map (f : α → β) (hread : Local eof read) : Local eof (f <$> read) :=
  hread.bind fun x => Local.pure (f x)

theorem ite {p : Prop} [Decidable p] {first second : EStateM ε Cursor α}
    (hfirst : p → Local eof first) (hsecond : ¬p → Local eof second) :
    Local eof (if p then first else second) := by
  by_cases hp : p
  · rw [if_pos hp]
    exact hfirst hp
  · rw [if_neg hp]
    exact hsecond hp

theorem yields (hread : Local eof read) : Yields read fun _ _ => True := by
  intro c x c' h
  obtain ⟨n, hn, hc, -⟩ := hread c x c' h
  exact ⟨n, hn, hc, trivial⟩

end Local

namespace Read

/-! ## Numbers -/

theorem take_spans (bytes : List UInt8) :
    Spans ReadError.endOfBuffer (take bytes.length) bytes bytes := by
  refine ⟨take_takes bytes, fun m hm position => ⟨⟨position, bytes.take m⟩, ?_⟩⟩
  rw [take_eq, if_neg]
  rw [Cursor.remaining, List.length_take]
  omega

theorem take_local (n : Nat) : Local .endOfBuffer (take n) := by
  intro c bytes c' h
  rw [take_eq] at h
  split at h
  · rename_i hn
    cases h
    have hspans := take_spans (c.rest.take n)
    rw [List.length_take_of_le hn] at hspans
    exact ⟨n, hn, rfl, hspans⟩
  · cases h

theorem byte_local : Local .endOfBuffer byte := by
  intro c b c' h
  obtain ⟨position, _ | ⟨first, rest⟩⟩ := c
  · cases h
  · cases h
    refine ⟨1, by simp [Cursor.remaining], rfl, byte_takes _, fun m hm position => ?_⟩
    obtain rfl : m = 0 := by
      simpa using hm
    exact ⟨_, rfl⟩

theorem skip_local (n : Nat) : Local .endOfBuffer (skip n) :=
  (take_local n).bind fun _ => .pure ()

theorem number_local (width : Nat) : Local .endOfBuffer (number width) :=
  (take_local width).map ofLittleEndian

theorem uint32_local : Local .endOfBuffer uint32 :=
  (number_local 4).map UInt32.ofNat

theorem int32_local : Local .endOfBuffer int32 :=
  uint32_local.map UInt32.toInt32

theorem uint64_local : Local .endOfBuffer uint64 :=
  (number_local 8).map UInt64.ofNat

theorem int64_local : Local .endOfBuffer int64 :=
  uint64_local.map UInt64.toInt64

theorem bool_local : Local .endOfBuffer bool := by
  refine uint32_local.bind fun id => ?_
  exact .ite (fun _ => .pure _) fun _ => .ite (fun _ => .pure _) fun _ => .throw _

theorem raw_local (n : Nat) : Local .endOfBuffer (raw n) := by
  intro c v c' h
  unfold raw at h
  simp only at h
  split at h
  · rename_i hlength
    cases h
    have hn : n ≤ c.remaining := by
      rw [List.length_take] at hlength
      unfold Cursor.remaining
      omega
    have htakes := raw_takes (⟨(c.rest.take n).toArray, by simpa using hlength⟩ : Vector UInt8 n)
    refine ⟨n, hn, rfl, htakes, fun m hm position => ⟨⟨position, _⟩, dif_neg ?_⟩⟩
    rw [List.take_take, List.length_take, List.length_take]
    rw [hlength] at hm
    omega
  · cases h

/-! ## Payloads and vectors -/

theorem payload_local : Local .endOfBuffer payload := by
  refine byte_local.bind fun first => .ite (fun _ => .throw _) fun _ => ?_
  have hbody (header length : Nat) : Local .endOfBuffer (do
      let bytes ← take length
      skip (padding (header + length))
      return bytes) :=
    (take_local length).bind fun bytes => (skip_local _).bind fun _ => .pure bytes
  refine .ite (fun _ => (number_local 3).bind fun length => ?_) fun _ => ?_
  · rw [pure_bind]
    exact hbody 4 length
  · rw [pure_bind]
    exact hbody 1 first.toNat

theorem string_local : Local .endOfBuffer string := by
  refine payload_local.bind fun bytes => ?_
  cases Text.ofUtf8? bytes with
  | some s => exact .pure s
  | none => exact .throw _

theorem count_local : Local .endOfBuffer count :=
  int32_local.bind fun _ => .ite (fun _ => .pure _) fun _ => .throw _

theorem id_local (expected : UInt32) : Local .endOfBuffer (id expected) :=
  uint32_local.bind fun _ => .ite (fun _ => .pure ()) fun _ => .throw _

theorem items_local {read : EStateM ε Cursor α} (hread : Local eof read) (n : Nat) :
    Local eof (items read n) := by
  have hfrom : ∀ done : List α, Local eof (itemsFrom read n done) := by
    induction n with
    | zero => exact fun done => .pure done.reverse
    | succ n ih =>
        intro done
        rw [itemsFrom_succ]
        exact hread.bind fun item => ih (item :: done)
  exact hfrom []

end Read

/-! ## Readers that are equal on few bytes -/

def EqWithin (bound : Nat) (first second : EStateM ε Cursor α) : Prop :=
  ∀ c, c.remaining ≤ bound → first c = second c

namespace EqWithin

variable {bound : Nat} {read first second : EStateM ε Cursor α}
  {next next' : α → EStateM ε Cursor β}

theorem refl (bound : Nat) (read : EStateM ε Cursor α) : EqWithin bound read read :=
  fun _ _ => rfl

theorem bind (hread : EqWithin bound first second) (hforward : Yields first fun _ _ => True)
    (hnext : ∀ x, EqWithin bound (next x) (next' x)) :
    EqWithin bound (first >>= next) (second >>= next') := by
  intro c hc
  show EStateM.bind first next c = EStateM.bind second next' c
  unfold EStateM.bind
  rw [← hread c hc]
  cases hfirst : first c with
  | error e stop => rfl
  | ok x c' =>
      obtain ⟨k, -, rfl, -⟩ := hforward c x c' hfirst
      refine hnext x _ ?_
      rw [Cursor.remaining_skip]
      omega

theorem behind {size : Nat} (hread : Yields read fun _ taken => taken = size)
    (hnext : size ≤ bound → ∀ x, EqWithin (bound - size) (next x) (next' x)) :
    EqWithin bound (read >>= next) (read >>= next') := by
  intro c hc
  show EStateM.bind read next c = EStateM.bind read next' c
  unfold EStateM.bind
  cases hresult : read c with
  | error e stop => rfl
  | ok x c' =>
      obtain ⟨_, hsize, rfl, rfl⟩ := hread c x c' hresult
      refine hnext (by omega) x _ ?_
      rw [Cursor.remaining_skip]
      omega

theorem ite {p : Prop} [Decidable p] {first' second' : EStateM ε Cursor α}
    (hthen : EqWithin bound first second) (helse : EqWithin bound first' second') :
    EqWithin bound (if p then first else first') (if p then second else second') := by
  by_cases hp : p
  · simpa only [hp, if_true] using hthen
  · simpa only [hp, if_false] using helse

theorem items (hread : EqWithin bound first second) (hforward : Yields first fun _ _ => True)
    (n : Nat) : EqWithin bound (Read.items first n) (Read.items second n) := by
  have hfrom : ∀ done : List α,
      EqWithin bound (Read.itemsFrom first n done) (Read.itemsFrom second n done) := by
    induction n with
    | zero => exact fun done => refl bound _
    | succ n ih =>
        intro done
        rw [Read.itemsFrom_succ, Read.itemsFrom_succ]
        exact hread.bind hforward fun item => ih (item :: done)
  exact hfrom []

end EqWithin

end TypeLang.Wire

/-! ## JSON values -/

namespace TypeLang.JsonValue

open Wire (Cursor Local EqWithin)

theorem readMember_local {read : Wire.Read JsonValue} (hread : Local .endOfBuffer read) :
    Local .endOfBuffer (readMember read) := by
  refine (Wire.Read.id_local _).bind fun _ => Wire.Read.string_local.bind fun key => ?_
  exact hread.bind fun value => .pure (key, value)

theorem readNested_local (depth : Nat) : Local .endOfBuffer (readNested depth) := by
  induction depth with
  | zero => exact .throw _
  | succ depth ih =>
      have hcounted {α : Type} {read : Wire.Read α} (hread : Local .endOfBuffer read)
          (wrap : List α → JsonValue) : Local .endOfBuffer (do
            Wire.Read.id Wire.vectorId
            let n ← Wire.Read.count
            return wrap (← Wire.Read.items read n)) := by
        refine (Wire.Read.id_local _).bind fun _ => Wire.Read.count_local.bind fun n => ?_
        exact (Wire.Read.items_local hread n).bind fun _ => .pure _
      rw [readNested]
      refine Wire.Read.uint32_local.bind fun id => ?_
      refine .ite (fun _ => .pure null) fun _ => ?_
      refine .ite (fun _ => Wire.Read.bool_local.bind fun _ => .pure _) fun _ => ?_
      refine .ite (fun _ => Wire.Read.uint64_local.bind fun _ => .pure _) fun _ => ?_
      refine .ite (fun _ => Wire.Read.string_local.bind fun _ => .pure _) fun _ => ?_
      refine .ite (fun _ => hcounted ih array) fun _ => ?_
      exact .ite (fun _ => hcounted (readMember_local ih) object) fun _ => .throw _

/-- Each level of nesting takes an identifier, so that depth beyond the number of bytes makes no
difference. -/
theorem readNested_eqWithin {bound m n : Nat} (hm : bound < m) (hn : bound < n) :
    EqWithin bound (readNested m) (readNested n) := by
  induction m generalizing bound n with
  | zero => omega
  | succ m ih =>
      obtain ⟨n, rfl⟩ : ∃ k, n = k + 1 := ⟨n - 1, by omega⟩
      rw [readNested, readNested]
      refine .behind Wire.Read.uint32_yields fun hbound id => ?_
      have hnested : EqWithin (bound - 4) (readNested m) (readNested n) :=
        ih (by omega) (by omega)
      have hcounted {α : Type} {first second : Wire.Read α} (wrap : List α → JsonValue)
          (hread : EqWithin (bound - 4) first second)
          (hforward : Wire.Yields first fun _ _ => True) :
          EqWithin (bound - 4) (do
              Wire.Read.id Wire.vectorId
              let k ← Wire.Read.count
              return wrap (← Wire.Read.items first k))
            (do
              Wire.Read.id Wire.vectorId
              let k ← Wire.Read.count
              return wrap (← Wire.Read.items second k)) := by
        refine .bind (.refl _ _) (Wire.Read.id_local _).yields fun _ => ?_
        refine .bind (.refl _ _) Wire.Read.count_local.yields fun k => ?_
        refine .bind (hread.items hforward k) ?_ fun _ => .refl _ _
        exact (Wire.Read.items_yields hforward k).mono fun _ _ _ => trivial
      refine .ite (.refl _ _) (.ite (.refl _ _) (.ite (.refl _ _) (.ite (.refl _ _) ?_)))
      refine .ite (hcounted array hnested (readNested_local m).yields) (.ite ?_ (.refl _ _))
      refine hcounted object ?_ (readMember_local (readNested_local m)).yields
      refine .bind (.refl _ _) (Wire.Read.id_local _).yields fun _ => ?_
      refine .bind (.refl _ _) Wire.Read.string_local.yields fun key => ?_
      exact .bind hnested (readNested_local m).yields fun _ => .refl _ _

theorem read_eq_readNested {depth : Nat} {c : Cursor} (h : c.remaining < depth) :
    read c = readNested depth c :=
  readNested_eqWithin (Nat.lt_succ_self _) h c (Nat.le_refl _)

theorem read_local : Local .endOfBuffer read := by
  intro c j c' h
  -- A depth that is enough for these bytes and for any others that are to be compared with them.
  have hdeep : ∀ depth, c.remaining < depth →
      ∃ n, n ≤ c.remaining ∧ c' = c.skip n ∧
        Wire.Spans .endOfBuffer (readNested depth) (c.rest.take n) j := by
    intro depth hdepth
    rw [read_eq_readNested hdepth] at h
    exact readNested_local depth c j c' h
  obtain ⟨n, hn, hc, -⟩ := hdeep _ (Nat.lt_succ_self _)
  have hspans : ∀ depth, c.remaining < depth →
      Wire.Spans .endOfBuffer (readNested depth) (c.rest.take n) j := by
    intro depth hdepth
    obtain ⟨k, -, hc', hspans⟩ := hdeep depth hdepth
    rwa [Cursor.eq_of_skip_eq (hc.symm.trans hc')]
  have hread (other : Cursor) :
      ∃ depth, c.remaining < depth ∧ read other = readNested depth other :=
    ⟨max c.remaining other.remaining + 1, by omega, read_eq_readNested (by omega)⟩
  refine ⟨n, hn, hc, fun position rest => ?_, fun m hm position => ?_⟩
  · obtain ⟨depth, hdepth, heq⟩ := hread ⟨position, c.rest.take n ++ rest⟩
    rw [heq]
    exact (hspans depth hdepth).takes position rest
  · obtain ⟨depth, hdepth, heq⟩ := hread ⟨position, (c.rest.take n).take m⟩
    rw [heq]
    exact (hspans depth hdepth).short m hm position

end TypeLang.JsonValue
