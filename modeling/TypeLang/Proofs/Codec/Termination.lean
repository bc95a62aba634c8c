import Mathlib.Data.Fintype.Card
import Mathlib.Data.Set.Finite.List
import TypeLang.Proofs.Codec.LeadingIds
import TypeLang.Proofs.Codec.Settling

/-!
# Reading comes to an end

A plan set is `Grounded` if no declaration opens itself. Then whatever bytes are read, the depth of
`maxDepth` is enough: between two positions, objects are opened one in the other, which ends because
there are only so many declarations; and there are only so many positions. A declaration that opens
itself on the other hand is never read to its end (`reads_end_iff`). Compiling does not look out for
such declarations (`not_grounded_loop`).
-/

namespace TypeLang

open Relation (TransGen)
open Wire (Cursor)
open Decoding (Settled SettlesFrom)

namespace PlanSet

variable {p : PlanSet}

/-! ## Grounded plan sets -/

/-- No declaration opens itself, directly or by others. -/
def Grounded (p : PlanSet) : Prop :=
  ∀ d ∈ p.declarations, ¬TransGen p.Opens d d

theorem Grounded.of_rank (rank : DeclarationPlan → Nat)
    (hrank : ∀ d ∈ p.declarations, ∀ e, p.Opens d e → rank e < rank d) : p.Grounded := by
  intro d hd hcycle
  have hless : ∀ e, TransGen p.Opens d e → e ∈ p.declarations ∧ rank e < rank d := by
    intro e hopens
    induction hopens with
    | single h => exact ⟨h.mem, hrank d hd _ h⟩
    | tail _ h ih => exact ⟨h.mem, (hrank _ ih.1 _ h).trans ih.2⟩
  exact Nat.lt_irrefl _ (hless d hcycle).2

/-- What holds of a declaration if it holds of those it opens, holds of every declaration. -/
theorem Grounded.induction (h : p.Grounded) {motive : DeclarationPlan → Prop}
    (hstep : ∀ d ∈ p.declarations, (∀ e, p.Opens d e → motive e) → motive d) :
    ∀ d ∈ p.declarations, motive d := by
  have hfinite : Finite {d // d ∈ p.declarations} := p.declarations.finite_toSet
  let below (e d : {d // d ∈ p.declarations}) : Prop := TransGen p.Opens d.1 e.1
  have htrans : IsTrans _ below := ⟨fun _ _ _ hab hbc => hbc.trans hab⟩
  have hirrefl : Std.Irrefl below := ⟨fun d hcycle => h d.1 d.2 hcycle⟩
  have hbelow : WellFounded below := Finite.wellFounded_of_trans_of_irrefl below
  intro d hd
  refine hbelow.induction (C := fun d => motive d.1) ⟨d, hd⟩ fun d ih => ?_
  exact hstep d.1 d.2 fun e hopens => ih ⟨e, hopens.mem⟩ (.single hopens)

/-- Every reader of the depth comes to an end at `c`. -/
structure EndsWithin (p : PlanSet) (depth : Nat) (c : Cursor) : Prop where
  generic : Settled (p.readGeneric depth c)
  typed : ∀ site type, Settled (p.readTyped (p.readBody depth) (p.readGeneric depth) site type c)
  body : ∀ d ∈ p.declarations, Settled (p.readBody depth d c)

theorem exists_reader {d : DeclarationPlan} (hd : d ∈ p.declarations) :
    ∃ which, ∀ depth, p.reader depth which = p.readBody depth d := by
  obtain ⟨index, hindex, rfl⟩ := List.mem_iff_getElem.mp hd
  exact ⟨some ⟨index, hindex⟩, fun _ => rfl⟩

section

variable {schemas : List Schema} {capabilities : Capabilities}
  (hp : compile schemas capabilities = .ok p)

include hp

theorem reader_maxDepth_settled {c : Cursor} {n depth : Nat} (hn : n ≤ c.remaining)
    {which : Option (Fin p.declarations.length)}
    (h : Settled (p.reader depth which (c.skip n))) :
    Settled (p.reader (p.maxDepth c.remaining) which (c.skip n)) := by
  have hmem : (which, ⟨n, Nat.lt_succ_of_le hn⟩) ∈ p.settled c depth := (mem_settled c).mpr h
  exact (mem_settled c).mp (settled_maxDepth hp c depth hmem)

/-- The readers of the depth `maxDepth` settle at every position. The first induction is on the
bytes that are left, which takes care of whatever is read behind a byte; the second one is on what
is opened where no byte is read. -/
theorem Grounded.reader_settled (h : p.Grounded) (c : Cursor) {n : Nat} (hn : n ≤ c.remaining)
    (which : Option (Fin p.declarations.length)) :
    Settled (p.reader (p.maxDepth c.remaining) which (c.skip n)) := by
  induction hleft : c.remaining - n using Nat.strong_induction_on generalizing n which with
  | _ left ih =>
      subst hleft
      have hlater (which : Option (Fin p.declarations.length)) :
          SettlesFrom 1 (p.reader (p.maxDepth c.remaining) which) (c.skip n) := by
        intro m hm hle
        rw [Cursor.remaining_skip] at hle
        rw [Cursor.skip_skip]
        exact ih (c.remaining - (n + m)) (by omega) (by omega) which rfl
      have hbodies : ∀ d ∈ p.declarations,
          SettlesFrom 1 (p.readBody (p.maxDepth c.remaining) d) (c.skip n) := by
        intro d hd
        obtain ⟨which, hwhich⟩ := exists_reader hd
        rw [← hwhich]
        exact hlater which
      have hdeeper : Settled (p.reader (p.maxDepth c.remaining + 1) none (c.skip n)) :=
        readGeneric_succ_settles hp hbodies (hlater none)
      have hgeneric := reader_maxDepth_settled hp hn hdeeper
      have hgenerics : SettlesFrom 0 (p.reader (p.maxDepth c.remaining) none) (c.skip n) := by
        intro m _ hle
        rcases Nat.eq_zero_or_pos m with rfl | hpos
        · exact hgeneric
        · exact hlater none m hpos hle
      cases which with
      | none => exact hgeneric
      | some index =>
          refine h.induction (motive := fun d =>
            Settled (p.readBody (p.maxDepth c.remaining) d (c.skip n))) (fun d hd hopens => ?_) _
            (List.getElem_mem index.isLt)
          have hbody := readBody_succ_settles hp hbodies hgenerics hd hopens
          obtain ⟨which, hwhich⟩ := exists_reader hd
          rw [← hwhich] at hbody ⊢
          exact reader_maxDepth_settled hp hn hbody

theorem Grounded.endsWithin (h : p.Grounded) {c : Cursor} {depth : Nat}
    (hdepth : p.maxDepth c.remaining ≤ depth) : p.EndsWithin depth c := by
  have hsettles (which : Option (Fin p.declarations.length)) :
      SettlesFrom 0 (p.reader depth which) c := by
    intro n _ hn
    have hsettled := h.reader_settled hp c hn which
    rwa [(depthsAgree_of_le hp hdepth c).reader which n hn hsettled]
  have hbodies : ∀ d ∈ p.declarations, SettlesFrom 0 (p.readBody depth d) c := by
    intro d hd
    obtain ⟨which, hwhich⟩ := exists_reader hd
    rw [← hwhich]
    exact hsettles which
  obtain ⟨hforward, hforwards⟩ := forward hp depth
  constructor
  · exact (hsettles none).here
  · intro site type
    exact (readTyped_settlesFrom hforward hforwards (hsettles none) hbodies site type).here
  · exact fun d hd => (hbodies d hd).here

/-- A declaration that opens itself is never read to its end, wherever its identifier leads to it.
-/
theorem not_settled_of_dispatched {id : UInt32} {d : DeclarationPlan}
    (hd : p.dispatched id = .ok d) (hjson : id ∉ Wire.jsonIds) (hcycle : TransGen p.Opens d d)
    (rest : List UInt8) (depth : Nat) :
    ¬Settled (p.readGeneric depth (.ofBytes (Wire.uint32 id ++ rest))) := by
  cases depth with
  | zero =>
      rw [readGeneric]
      exact fun hsettled => hsettled _ _ rfl
  | succ depth =>
      obtain ⟨rfl, hreserved⟩ := id_of_dispatched hp hd
      have hobject := readsObject hd hreserved hjson (.generic .top) (.generic .top) depth 0 rest
      rw [Slot.read] at hobject
      rw [Cursor.ofBytes, hobject]
      exact not_settled_of_cycle hp hcycle depth _

/-- Every reader comes to an end if and only if no declaration opens itself. If so, the depth
`maxDepth` is always enough, and neither decoding a value nor decoding the result of a method ever
goes beyond it. The bytes of a declaration that opens itself are never read to an end. -/
theorem reads_end_iff :
    (p.Grounded ↔ ∀ c, ∃ depth, p.EndsWithin depth c) ∧
      (p.Grounded →
        (∀ c depth, p.maxDepth c.remaining ≤ depth →
          p.EndsWithin depth c ∧ p.readGeneric depth c = p.decodeFrom c) ∧
        (∀ bytes name, p.decode bytes ≠ .error (.endless name)) ∧
        ∀ id bytes name, p.decodeResult id bytes ≠ .error (.endless name)) ∧
      ∀ id d, p.dispatched id = .ok d → id ∉ Wire.jsonIds → TransGen p.Opens d d →
        ∀ rest depth, ¬Settled (p.readGeneric depth (.ofBytes (Wire.uint32 id ++ rest))) := by
  refine ⟨⟨fun h c => ⟨_, h.endsWithin hp (Nat.le_refl _)⟩, fun hends d hd hcycle => ?_⟩,
    fun h => ⟨fun c depth hdepth => ?_, fun bytes name => ?_, fun id bytes name => ?_⟩,
    fun id d hd hjson hcycle => not_settled_of_dispatched hp hd hjson hcycle⟩
  · obtain ⟨depth, hend⟩ := hends (.ofBytes [])
    exact not_settled_of_cycle hp hcycle depth _ (hend.body d hd)
  · refine ⟨h.endsWithin hp hdepth, ?_⟩
    have hagree := (depthsAgree_of_le hp hdepth c).1 0 (Nat.zero_le _)
    rw [Cursor.skip_zero] at hagree
    exact hagree (h.endsWithin hp (Nat.le_refl _)).generic
  · have hsettled : Settled (p.decodeFrom (.ofBytes bytes)) :=
      (h.endsWithin hp (Nat.le_refl _)).generic
    exact Decoding.run_ne_endless hsettled name
  · have hend : p.EndsWithin (p.maxDepth bytes.length) (.ofBytes bytes) :=
      h.endsWithin hp (Nat.le_refl _)
    exact bind_ne_error (method_ne_endless id name)
      fun d => Decoding.run_ne_endless (hend.typed _ _) name

end

end PlanSet

/-! ## Chains and loops -/

def Schema.chains : Schema where
  config := {}
  layer := none
  constructors := [
    ⟨.constructor, 1, ⟨[], "hook"⟩, [], .named ⟨[], "Hook"⟩ false⟩,
    ⟨.constructor, 2, ⟨[], "chain"⟩,
      [⟨"hook", .named ⟨[], "hook"⟩ true⟩,
        ⟨"links", .vector (.named ⟨[], "chain"⟩ true) false⟩], .named ⟨[], "Chain"⟩ false⟩]
  methods := []

def Schema.loops : Schema where
  config := {}
  layer := none
  constructors := [
    ⟨.constructor, 1, ⟨[], "loop"⟩, [⟨"x", .named ⟨[], "loop"⟩ true⟩],
      .named ⟨[], "Loop"⟩ false⟩]
  methods := []

def PlanSet.chains : PlanSet :=
  (compile [.chains] {}).toOption.getD default

def PlanSet.loops : PlanSet :=
  (compile [.loops] {}).toOption.getD default

theorem compile_chains : compile [.chains] {} = .ok .chains := by
  rfl

theorem compile_loops : compile [.loops] {} = .ok .loops := by
  rfl

namespace PlanSet

def hook : DeclarationPlan :=
  chains.declarations.getD 0 default

def chain : DeclarationPlan :=
  chains.declarations.getD 1 default

def loop : DeclarationPlan :=
  loops.declarations.getD 0 default

theorem chains_opens : chains.Opens chain hook ∧
    ∀ d ∈ chains.declarations, ∀ e, chains.Opens d e → d.id = 2 ∧ e = hook := by
  constructor
  · refine ⟨[], chain.layout.fields.getD 0 default, chain.layout.fields.drop 1, by decide, nofun,
      ?_⟩
    exact ⟨by decide, ⟨[], "hook"⟩, by decide, by decide +kernel⟩
  · rintro d hd e ⟨front, f, back, hsplit, -, hflag, name, htype, hbare⟩
    have hf : f ∈ d.layout.fields := by
      rw [hsplit]
      exact List.mem_append_right _ List.mem_cons_self
    have hfields : ∀ d ∈ chains.declarations, ∀ f ∈ d.layout.fields,
        f.valueType = .vector (.named ⟨[], "chain"⟩ true) false ∨
          d.id = 2 ∧ f.valueType = .named ⟨[], "hook"⟩ true ∧
            chains.bare d.schemaPrefix ⟨[], "hook"⟩ = .ok hook := by
      decide +kernel
    rcases hfields d hd f hf with hvector | ⟨hid, hhook, hok⟩
    · rw [hvector] at htype
      cases htype
    · rw [hhook] at htype
      cases htype
      rw [hok] at hbare
      cases hbare
      exact ⟨hid, rfl⟩

theorem grounded_chains : chains.Grounded := by
  refine .of_rank (fun d => d.id.toNat) fun d hd e hopens => ?_
  obtain ⟨hid, rfl⟩ := chains_opens.2 d hd e hopens
  rw [hid]
  decide

theorem loop_opens : loops.Opens loop loop := by
  refine ⟨[], loop.layout.fields.getD 0 default, [], by decide, nofun, ?_⟩
  exact ⟨by decide, ⟨[], "loop"⟩, by decide, by decide +kernel⟩

/-- Chains are always read to an end, loops never. -/
theorem reads_end_chains :
    chains.Grounded ∧ chains.Opens chain hook ∧
      (∀ bytes name, chains.decode bytes ≠ .error (.endless name)) ∧
      loops.dispatched 1 = .ok loop ∧ (1 : UInt32) ∉ Wire.jsonIds ∧
      TransGen loops.Opens loop loop ∧
      ∀ rest depth, ¬Settled (loops.readGeneric depth (.ofBytes (Wire.uint32 1 ++ rest))) := by
  obtain ⟨-, hends, -⟩ := reads_end_iff compile_chains
  obtain ⟨-, -, hnever⟩ := reads_end_iff compile_loops
  have hloop : loops.dispatched 1 = .ok loop := by
    decide +kernel
  exact ⟨grounded_chains, chains_opens.1, (hends grounded_chains).2.1, hloop, by decide,
    .single loop_opens, hnever 1 loop hloop (by decide) (.single loop_opens)⟩

/-- Loops compile, but a loop opens itself: no depth is enough for the bytes of its identifier. -/
theorem not_grounded_loop :
    compile [.loops] {} = .ok loops ∧ loops.Opens loop loop ∧ ¬loops.Grounded ∧
      ∀ depth, ¬Settled (loops.readGeneric depth (.ofBytes [1, 0, 0, 0])) := by
  have hloop : loops.dispatched 1 = .ok loop := by
    decide +kernel
  refine ⟨compile_loops, loop_opens, fun hgrounded => ?_, fun depth => ?_⟩
  · exact hgrounded loop (by decide +kernel) (.single loop_opens)
  · exact not_settled_of_dispatched compile_loops hloop (by decide) (.single loop_opens) [] depth

end PlanSet

end TypeLang
