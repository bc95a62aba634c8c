import Mathlib.Data.Fintype.Card
import Mathlib.Data.Fintype.Option
import Mathlib.Data.Fintype.Prod
import TypeLang.Proofs.Codec.Fields
import TypeLang.Proofs.Wire.JsonRoundTrip

/-!
# The depth of reading

Reading is bounded in depth, and gives up with the error `endless` where the bound is met. What is
read at some depth is read at every greater one, because nothing but that error depends on the
bound. A bound is never needed beyond `maxDepth`: going one deeper settles the result of a reader at
a further position or of no reader at all, and there are only so many readers and positions.
`read_maxDepth` puts this together.
-/

namespace TypeLang

open Wire (Cursor Yields)

namespace Decoding

variable {α β : Type}

/-- The result is not that the depth was too small. -/
def Settled (result : EStateM.Result CodecError Cursor α) : Prop :=
  ∀ name c, result ≠ .error (.endless name) c

/-- Wherever in front of `c` the first reader settles, the second one gives the same. -/
def Agrees (first second : Decoding α) (c : Cursor) : Prop :=
  ∀ n ≤ c.remaining, Settled (first (c.skip n)) → second (c.skip n) = first (c.skip n)

theorem settled_ok {x : α} {c : Cursor} :
    Settled (EStateM.Result.ok x c : EStateM.Result CodecError Cursor α) := by
  intro name c' h
  cases h

namespace Agrees

variable {first second third : Decoding α} {c : Cursor}

theorem refl (read : Decoding α) (c : Cursor) : Agrees read read c :=
  fun _ _ _ => rfl

theorem trans (h : Agrees first second c) (h' : Agrees second third c) : Agrees first third c := by
  intro n hn hsettled
  have heq := h n hn hsettled
  rw [h' n hn (heq ▸ hsettled), heq]

theorem bind {good : α → Nat → Prop} {next next' : α → Decoding β} (hread : Agrees first second c)
    (hgood : Yields first good) (hnext : ∀ x m, good x m → Agrees (next x) (next' x) c) :
    Agrees (first >>= next) (second >>= next') c := by
  intro n hn hsettled
  have heq : second (c.skip n) = first (c.skip n) := by
    apply hread n hn
    intro name c' herror
    apply hsettled name c'
    show EStateM.bind first next _ = _
    rw [EStateM.bind, herror]
  show EStateM.bind second next' _ = EStateM.bind first next _
  have hbind : Settled (EStateM.bind first next (c.skip n)) := hsettled
  unfold EStateM.bind at hbind ⊢
  rw [heq]
  cases hresult : first (c.skip n) with
  | error e c' => rfl
  | ok x c' =>
      rw [hresult] at hbind
      obtain ⟨m, hm, rfl, hx⟩ := hgood _ _ _ hresult
      rw [Wire.Cursor.remaining_skip] at hm
      simp only [Wire.Cursor.skip_skip] at hbind ⊢
      exact hnext x m hx (n + m) (by omega) hbind

theorem bind_pure {good : α → Nat → Prop} {f : α → β} (hread : Agrees first second c)
    (hgood : Yields first good) :
    Agrees (do return f (← first)) (do return f (← second)) c :=
  hread.bind hgood fun _ _ _ => refl _ _

theorem ite {p : Prop} [Decidable p] {first' second' : Decoding α}
    (hthen : p → Agrees first second c) (helse : ¬p → Agrees first' second' c) :
    Agrees (if p then first else first') (if p then second else second') c := by
  by_cases hp : p
  · simpa only [hp, if_true] using hthen hp
  · simpa only [hp, if_false] using helse hp

end Agrees

/-! ## Yielding -/

theorem wire_yields {read : Wire.Read α} {good : α → Nat → Prop} (h : Yields read good) :
    Yields (wire read) good := by
  intro c x c' hread
  unfold wire at hread
  split at hread
  · rename_i hok
    cases hread
    exact h c x _ hok
  · cases hread

theorem ofExcept_yields (result : Except CodecError α) :
    Yields (ofExcept result : Decoding α) fun x taken => result = .ok x ∧ taken = 0 := by
  cases result with
  | ok x => exact .pure ⟨rfl, rfl⟩
  | error e => exact .throw e

theorem get_yields : Yields (get : Decoding Cursor) fun _ taken => taken = 0 := by
  intro c x c' h
  cases h
  exact ⟨0, Nat.zero_le _, rfl, rfl⟩

def Forward (read : Decoding α) : Prop :=
  Yields read fun _ _ => True

theorem forward_wire {read : Wire.Read α} {good : α → Nat → Prop} (h : Yields read good) :
    Forward (wire read) :=
  (wire_yields h).mono fun _ _ _ => trivial

theorem forward_long : Forward (Value.long <$> wire Wire.Read.int64) :=
  (wire_yields Wire.Read.int64_yields).map fun _ _ _ => trivial

theorem forward_int : Forward (Value.int <$> wire Wire.Read.int32) :=
  (wire_yields Wire.Read.int32_yields).map fun _ _ _ => trivial

theorem forward_vectorMark (boxed : Bool) :
    Forward (if boxed then wire (Wire.Read.id Wire.vectorId) else pure ()) :=
  .ite (fun _ => forward_wire (Wire.Read.id_yields _)) fun _ => .pure trivial

theorem exists_of_run {read : Decoding α} {good : α → Nat → Prop} (hread : Yields read good)
    {bytes : List UInt8} {x : α} (h : read.run bytes = .ok x) :
    ∃ taken ≤ bytes.length, good x taken := by
  unfold run at h
  split at h
  · rename_i hok
    cases h
    obtain ⟨taken, htaken, -, hgood⟩ := hread _ _ _ hok
    exact ⟨taken, htaken, hgood⟩
  · cases h

namespace Forward

variable {read : Decoding α}

theorem of_yields {good : α → Nat → Prop} (h : Yields read good) : Forward read :=
  h.mono fun _ _ _ => trivial

theorem bind {next : α → Decoding β} (hread : Forward read) (hnext : ∀ x, Forward (next x)) :
    Forward (read >>= next) :=
  Yields.bind hread fun x _ _ => hnext x

theorem items (hread : Forward read) (n : Nat) : Forward (Wire.Read.items read n) :=
  of_yields (Wire.Read.items_yields hread n)

end Forward

theorem Agrees.items {first second : Decoding α} {c : Cursor} (hread : Agrees first second c)
    (hforward : Forward first) (n : Nat) :
    Agrees (Wire.Read.items first n) (Wire.Read.items second n) c := by
  have hfrom : ∀ done : List α, Agrees (Wire.Read.itemsFrom first n done)
      (Wire.Read.itemsFrom second n done) c := by
    induction n with
    | zero => exact fun done => refl _ c
    | succ n ih =>
        intro done
        rw [Wire.Read.itemsFrom_succ, Wire.Read.itemsFrom_succ]
        exact hread.bind hforward fun item _ _ => ih (item :: done)
  exact hfrom []

end Decoding

open Decoding (wire Agrees Forward Settled)

namespace PlanSet

/-! ## Readers that use others -/

section

variable {generic generic' : Decoding Value}

theorem readPrimitive_forward (hgeneric : Forward generic) (kind : Primitive) :
    Forward (readPrimitive generic kind) := by
  cases kind with
  | int => exact (Decoding.wire_yields Wire.Read.int32_yields).map fun _ _ _ => trivial
  | long => exact (Decoding.wire_yields Wire.Read.int64_yields).map fun _ _ _ => trivial
  | double => exact (Decoding.wire_yields Wire.Read.uint64_yields).map fun _ _ _ => trivial
  | bool => exact (Decoding.wire_yields Wire.Read.bool_yields).map fun _ _ _ => trivial
  | trueLiteral => exact .pure trivial
  | bytes => exact (Decoding.wire_yields Wire.Read.payload_yields).map fun _ _ _ => trivial
  | string => exact (Decoding.wire_yields Wire.Read.string_yields).map fun _ _ _ => trivial
  | int128 => exact (Decoding.wire_yields (Wire.Read.raw_yields 16)).map fun _ _ _ => trivial
  | int256 => exact (Decoding.wire_yields (Wire.Read.raw_yields 32)).map fun _ _ _ => trivial
  | json => exact (Decoding.wire_yields JsonValue.read_yields).map fun _ _ _ => trivial
  | flags => exact (Decoding.wire_yields Wire.Read.int32_yields).map fun _ _ _ => trivial
  | object => exact hgeneric

theorem readPrimitive_agrees {c : Cursor} (hgeneric : Agrees generic generic' c)
    (kind : Primitive) : Agrees (readPrimitive generic kind) (readPrimitive generic' kind) c := by
  cases kind with
  | object => exact hgeneric
  | _ => exact .refl _ c

variable {p : PlanSet} {body body' : DeclarationPlan → Decoding Value}

theorem readTyped_vector (site : Site) (inner : TypeExpr) (boxed : Bool) :
    readTyped p body generic site (.vector inner boxed) = (do
      (if boxed then wire (Wire.Read.id Wire.vectorId) else pure () : Decoding Unit)
      let n ← wire Wire.Read.count
      return .vector (← Wire.Read.items (readTyped p body generic site inner) n)) := by
  cases boxed <;> rfl

theorem readTyped_forward (hbody : ∀ d ∈ p.declarations, Forward (body d))
    (hgeneric : Forward generic) (site : Site) (type : TypeExpr) :
    Forward (readTyped p body generic site type) := by
  induction type with
  | primitive kind => exact readPrimitive_forward hgeneric kind
  | flag flag inner ih => exact ih
  | var name => exact hgeneric
  | vector inner boxed ih =>
      rw [readTyped_vector]
      refine .bind (Decoding.forward_vectorMark boxed) fun _ => ?_
      refine .bind (Decoding.forward_wire Wire.Read.count_yields) fun n => ?_
      exact .bind (ih.items n) fun _ => .pure trivial
  | named name bare =>
      cases bare with
      | true =>
          apply Yields.bind (Decoding.ofExcept_yields _)
          rintro d _ ⟨hd, -⟩
          exact hbody d (mem_of_bare hd)
      | false =>
          refine .bind (Decoding.forward_wire Wire.Read.uint32_yields) fun id => ?_
          apply Yields.bind (Decoding.ofExcept_yields _)
          rintro d _ ⟨hd, -⟩
          exact hbody d (mem_of_dispatched (dispatched_of_typed hd))

theorem readTyped_agrees {c : Cursor} (hbody : ∀ d ∈ p.declarations, Agrees (body d) (body' d) c)
    (hforward : ∀ d ∈ p.declarations, Forward (body d)) (hgeneric : Agrees generic generic' c)
    (hforward' : Forward generic) (site : Site) (type : TypeExpr) :
    Agrees (readTyped p body generic site type) (readTyped p body' generic' site type) c := by
  induction type with
  | primitive kind => exact readPrimitive_agrees hgeneric kind
  | flag flag inner ih => exact ih
  | var name => exact hgeneric
  | vector inner boxed ih =>
      have hinner := readTyped_forward hforward hforward' site inner
      rw [readTyped_vector, readTyped_vector]
      refine .bind (.refl _ c) (Decoding.forward_vectorMark boxed) fun _ _ _ => ?_
      refine .bind (.refl _ c) (Decoding.wire_yields Wire.Read.count_yields) fun n _ _ => ?_
      exact (ih.items hinner n).bind_pure (hinner.items n)
  | named name bare =>
      cases bare with
      | true =>
          refine .bind (.refl _ c) (Decoding.ofExcept_yields _) ?_
          rintro d _ ⟨hd, -⟩
          exact hbody d (mem_of_bare hd)
      | false =>
          refine .bind (.refl _ c) (Decoding.wire_yields Wire.Read.uint32_yields) fun id _ _ => ?_
          refine .bind (.refl _ c) (Decoding.ofExcept_yields _) ?_
          rintro d _ ⟨hd, -⟩
          exact hbody d (mem_of_dispatched (dispatched_of_typed hd))

variable {read read' : FieldPlan → Decoding Value}

theorem readFields_forward {todo : List FieldPlan} (htreatment : ∀ f ∈ todo, f.Treatment)
    (hread : ∀ f ∈ todo, Forward (read f)) (words : List (String × UInt32)) (fields : Fields) :
    Forward (readFields read words fields todo) := by
  induction todo generalizing words fields with
  | nil => exact .pure trivial
  | cons f rest ih =>
      have hrest := ih (fun g hg => htreatment g (List.mem_cons_of_mem _ hg))
        (fun g hg => hread g (List.mem_cons_of_mem _ hg))
      cases htreatment f List.mem_cons_self with
      | word _ kind =>
          rw [readFields_word kind]
          exact .bind (Decoding.forward_wire Wire.Read.uint32_yields) fun word => hrest _ _
      | bit kind =>
          rw [readFields_bit kind]
          exact hrest _ _
      | value kind =>
          rw [readFields_value kind]
          refine .ite (fun _ => ?_) fun _ => hrest _ _
          exact Forward.bind (hread f List.mem_cons_self) fun value => hrest _ _

theorem readFields_agrees {c : Cursor} {todo : List FieldPlan}
    (htreatment : ∀ f ∈ todo, f.Treatment) (hread : ∀ f ∈ todo, Agrees (read f) (read' f) c)
    (hforward : ∀ f ∈ todo, Forward (read f)) (words : List (String × UInt32)) (fields : Fields) :
    Agrees (readFields read words fields todo) (readFields read' words fields todo) c := by
  induction todo generalizing words fields with
  | nil => exact .refl _ c
  | cons f rest ih =>
      have hrest := ih (fun g hg => htreatment g (List.mem_cons_of_mem _ hg))
        (fun g hg => hread g (List.mem_cons_of_mem _ hg))
        (fun g hg => hforward g (List.mem_cons_of_mem _ hg))
      cases htreatment f List.mem_cons_self with
      | word _ kind =>
          rw [readFields_word kind, readFields_word kind]
          exact .bind (.refl _ c) (Decoding.wire_yields Wire.Read.uint32_yields)
            fun word _ _ => hrest _ _
      | bit kind =>
          rw [readFields_bit kind, readFields_bit kind]
          exact hrest _ _
      | value kind =>
          rw [readFields_value kind, readFields_value kind]
          refine .ite (fun _ => ?_) fun _ => hrest _ _
          exact .bind (hread f List.mem_cons_self) (hforward f List.mem_cons_self)
            fun value _ _ => hrest _ _

end

/-! ## One level deeper -/

section

variable {schemas : List Schema} {capabilities : Capabilities} {p : PlanSet}
  (hp : compile schemas capabilities = .ok p)

theorem readBody_succ (depth : Nat) (d : DeclarationPlan) :
    readBody p (depth + 1) d = (do
      return .object d.id (← readFields (fun f =>
        readTyped p (readBody p depth) (readGeneric p depth) (d.site f) f.valueType) [] []
        d.layout.fields)) := by
  rw [readBody]

theorem readGeneric_succ_forward {depth : Nat} (hgeneric : Forward (readGeneric p depth))
    (hbody : ∀ d ∈ p.declarations, Forward (readBody p depth d)) :
    Forward (readGeneric p (depth + 1)) := by
  rw [readGeneric]
  refine .bind (Decoding.forward_wire Wire.Read.peekUInt32_yields) fun id => ?_
  refine .ite (fun _ => ?_) fun _ => .ite (fun _ => ?_) fun _ => .ite (fun _ => ?_) fun _ => ?_
  · exact Forward.bind (Decoding.forward_wire Wire.Read.bool_yields) fun _ => .pure trivial
  · refine Forward.bind (Decoding.forward_wire (Wire.Read.skip_yields 4)) fun _ => ?_
    refine .bind (Decoding.forward_wire Wire.Read.count_yields) fun n => ?_
    refine .bind (.of_yields Decoding.get_yields) fun c => ?_
    refine .ite (fun _ => ?_) fun _ => .ite (fun _ => ?_) fun _ => ?_
    · exact Forward.bind (Decoding.forward_long.items n) fun _ => .pure trivial
    · exact Forward.bind (Decoding.forward_int.items n) fun _ => .pure trivial
    · exact Forward.bind (hgeneric.items n) fun _ => .pure trivial
  · exact Forward.bind (Decoding.forward_wire JsonValue.read_yields) fun _ => .pure trivial
  · refine Forward.bind (Decoding.forward_wire Wire.Read.uint32_yields) fun id => ?_
    apply Yields.bind (Decoding.ofExcept_yields _)
    rintro d _ ⟨hd, -⟩
    exact hbody d (mem_of_dispatched hd)

theorem readGeneric_succ_agrees {m n : Nat} {c : Cursor}
    (hgeneric : Agrees (readGeneric p m) (readGeneric p n) c)
    (hforward : Forward (readGeneric p m))
    (hbody : ∀ d ∈ p.declarations, Agrees (readBody p m d) (readBody p n d) c) :
    Agrees (readGeneric p (m + 1)) (readGeneric p (n + 1)) c := by
  rw [readGeneric, readGeneric]
  refine .bind (.refl _ c) (Decoding.wire_yields Wire.Read.peekUInt32_yields) fun id _ _ => ?_
  refine .ite (fun _ => .refl _ c) fun _ => .ite (fun _ => ?_) fun _ => ?_
  · refine .bind (.refl _ c) (Decoding.wire_yields (Wire.Read.skip_yields 4)) fun _ _ _ => ?_
    refine .bind (.refl _ c) (Decoding.wire_yields Wire.Read.count_yields) fun count _ _ => ?_
    refine .bind (.refl _ c) Decoding.get_yields fun _ _ _ => ?_
    refine .ite (fun _ => .refl _ c) fun _ => .ite (fun _ => .refl _ c) fun _ => ?_
    exact (hgeneric.items hforward count).bind_pure (hforward.items count)
  · refine .ite (fun _ => .refl _ c) fun _ => ?_
    refine .bind (.refl _ c) (Decoding.wire_yields Wire.Read.uint32_yields) fun id _ _ => ?_
    refine .bind (.refl _ c) (Decoding.ofExcept_yields _) ?_
    rintro d _ ⟨hd, -⟩
    exact hbody d (mem_of_dispatched hd)

include hp

theorem forward (depth : Nat) :
    Forward (readGeneric p depth) ∧ ∀ d ∈ p.declarations, Forward (readBody p depth d) := by
  induction depth with
  | zero =>
      refine ⟨?_, fun d _ => ?_⟩
      · rw [readGeneric]
        exact .throw _
      · rw [readBody]
        exact .throw _
  | succ depth ih =>
      obtain ⟨hgeneric, hbody⟩ := ih
      refine ⟨readGeneric_succ_forward hgeneric hbody, fun d hd => ?_⟩
      rw [readBody_succ]
      refine .bind (readFields_forward ?_ ?_ [] []) fun _ => .pure trivial
      · exact fun f hf => (planned_of_mem hp hd).treatment hf
      · exact fun f _ => readTyped_forward hbody hgeneric _ _

def DepthsAgree (p : PlanSet) (m n : Nat) (c : Cursor) : Prop :=
  Agrees (readGeneric p m) (readGeneric p n) c ∧
    ∀ d ∈ p.declarations, Agrees (readBody p m d) (readBody p n d) c

theorem DepthsAgree.succ {m n : Nat} {c : Cursor} (h : p.DepthsAgree m n c) :
    p.DepthsAgree (m + 1) (n + 1) c := by
  obtain ⟨hgeneric, hbody⟩ := h
  obtain ⟨hforward, hforwards⟩ := forward hp m
  refine ⟨readGeneric_succ_agrees hgeneric hforward hbody, fun d hd => ?_⟩
  rw [readBody_succ, readBody_succ]
  have htreatment : ∀ f ∈ d.layout.fields, f.Treatment :=
    fun f hf => (planned_of_mem hp hd).treatment hf
  have hread : ∀ f ∈ d.layout.fields,
      Forward (readTyped p (readBody p m) (readGeneric p m) (d.site f) f.valueType) :=
    fun f _ => readTyped_forward hforwards hforward _ _
  refine (readFields_agrees htreatment ?_ hread [] []).bind_pure
    (readFields_forward htreatment hread [] [])
  exact fun f _ => readTyped_agrees hbody hforwards hgeneric hforward _ _

theorem depthsAgree_of_le {m n : Nat} (h : m ≤ n) (c : Cursor) : p.DepthsAgree m n c := by
  induction m generalizing n with
  | zero =>
      refine ⟨fun k _ hsettled => ?_, fun d _ k _ hsettled => ?_⟩
      · rw [readGeneric] at hsettled
        exact (hsettled _ _ rfl).elim
      · rw [readBody] at hsettled
        exact (hsettled _ _ rfl).elim
  | succ m ih =>
      obtain ⟨n, rfl⟩ : ∃ k, n = k + 1 := ⟨n - 1, by omega⟩
      exact DepthsAgree.succ hp (ih (by omega))

end

/-! ## How deep is deep enough -/

def reader (p : PlanSet) (depth : Nat) : Option (Fin p.declarations.length) → Decoding Value
  | none => readGeneric p depth
  | some index => readBody p depth p.declarations[index]

theorem DepthsAgree.reader {p : PlanSet} {m n : Nat} {c : Cursor} (h : p.DepthsAgree m n c)
    (which : Option (Fin p.declarations.length)) :
    Agrees (p.reader m which) (p.reader n which) c := by
  cases which with
  | none => exact h.1
  | some index => exact h.2 _ (List.getElem_mem _)

theorem DepthsAgree.of_reader {p : PlanSet} {m n : Nat} {c : Cursor}
    (h : ∀ which, Agrees (p.reader m which) (p.reader n which) c) : p.DepthsAgree m n c := by
  refine ⟨h none, fun d hd => ?_⟩
  obtain ⟨index, hindex, rfl⟩ := List.mem_iff_getElem.mp hd
  exact h (some ⟨index, hindex⟩)

open Classical in
noncomputable def settled (p : PlanSet) (c : Cursor) (depth : Nat) :
    Finset (Option (Fin p.declarations.length) × Fin (c.remaining + 1)) :=
  Finset.univ.filter fun x => Settled (p.reader depth x.1 (c.skip x.2))

section

variable {schemas : List Schema} {capabilities : Capabilities} {p : PlanSet}
  (hp : compile schemas capabilities = .ok p) (c : Cursor)

theorem mem_settled {depth : Nat}
    {x : Option (Fin p.declarations.length) × Fin (c.remaining + 1)} :
    x ∈ p.settled c depth ↔ Settled (p.reader depth x.1 (c.skip x.2)) := by
  simp [settled]

theorem card_settled_le (depth : Nat) :
    (p.settled c depth).card ≤ p.maxDepth c.remaining := by
  have hcard := Finset.card_le_univ (p.settled c depth)
  rw [Fintype.card_prod, Fintype.card_option, Fintype.card_fin, Fintype.card_fin] at hcard
  calc (p.settled c depth).card
      ≤ (p.declarations.length + 1) * (c.remaining + 1) := hcard
    _ = (c.remaining + 1) * (p.declarations.length + 1) := Nat.mul_comm ..
    _ ≤ p.maxDepth c.remaining := Nat.mul_le_mul_left _ (by omega)

include hp

theorem settled_mono {m n : Nat} (h : m ≤ n) : p.settled c m ⊆ p.settled c n := by
  intro x hx
  rw [mem_settled] at hx ⊢
  have hagree := (depthsAgree_of_le hp h c).reader x.1 x.2 (by omega) hx
  rwa [hagree]

theorem settled_stable {depth : Nat} (h : p.settled c depth = p.settled c (depth + 1)) :
    p.settled c (depth + 1) = p.settled c (depth + 2) := by
  have hback : p.DepthsAgree (depth + 1) depth c := by
    refine .of_reader fun which n hn hsettled => ?_
    have hmem : (which, ⟨n, by omega⟩) ∈ p.settled c (depth + 1) := (mem_settled c).mpr hsettled
    rw [← h] at hmem
    have hagree := (depthsAgree_of_le hp (Nat.le_succ depth) c).reader which n hn
      ((mem_settled c).mp hmem)
    exact hagree.symm
  apply (settled_mono hp c (Nat.le_succ _)).antisymm
  intro x hx
  rw [mem_settled] at hx ⊢
  have hagree := (hback.succ hp).reader x.1 x.2 (by omega) hx
  rwa [hagree]

theorem settled_maxDepth (depth : Nat) :
    p.settled c depth ⊆ p.settled c (p.maxDepth c.remaining) := by
  by_cases hle : depth ≤ p.maxDepth c.remaining
  · exact settled_mono hp c hle
  · have hmono : Monotone fun n => (p.settled c n).card :=
      fun m n h => Finset.card_le_card (settled_mono hp c h)
    have hstable : ∀ n, (p.settled c n).card = (p.settled c (n + 1)).card →
        (p.settled c (n + 1)).card = (p.settled c (n + 2)).card := by
      intro n hcard
      have heq := Finset.eq_of_subset_of_card_le (settled_mono hp c (Nat.le_succ n)) hcard.ge
      rw [settled_stable hp c heq]
    have hcard := Nat.stabilises_of_monotone hmono (card_settled_le c) hstable
      (Nat.le_of_not_le hle)
    have heq := Finset.eq_of_subset_of_card_le (settled_mono hp c (Nat.le_of_not_le hle)) hcard.le
    exact heq.ge

theorem read_maxDepth (depth : Nat) : p.DepthsAgree depth (p.maxDepth c.remaining) c := by
  refine .of_reader fun which n hn hsettled => ?_
  have hmem : (which, ⟨n, by omega⟩) ∈ p.settled c depth := (mem_settled c).mpr hsettled
  have hmax := (mem_settled c).mp (settled_maxDepth hp c depth hmem)
  rcases Nat.le_total depth (p.maxDepth c.remaining) with hle | hle
  · exact (depthsAgree_of_le hp hle c).reader which n hn hsettled
  · exact ((depthsAgree_of_le hp hle c).reader which n hn hmax).symm

theorem decodeFrom_of_read {depth : Nat} {v : Value} {c' : Cursor}
    (h : readGeneric p depth c = .ok v c') : p.decodeFrom c = .ok v c' := by
  have hagree := (read_maxDepth hp c depth).1 0 (Nat.zero_le _)
  rw [Cursor.skip_zero, h] at hagree
  exact hagree Decoding.settled_ok

end

end PlanSet

end TypeLang
