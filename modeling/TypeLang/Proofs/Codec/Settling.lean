import TypeLang.Proofs.Codec.Weight

/-!
# When readers come to an end

A reader settles if it comes to a result within its depth. Everything but opening objects settles by
itself; so a reader settles if those it uses do behind the first byte, and at the very start only
those that are used before any byte is read. One level deeper, these are the readers of the
declarations that are opened (`readBody_succ_settles`).
-/

namespace TypeLang

open Wire (Cursor Yields)
open Decoding (wire Forward Settled)

theorem bind_ne_error {ε α β : Type} {result : Except ε α} {next : α → Except ε β} {e : ε}
    (hresult : result ≠ .error e) (hnext : ∀ x, next x ≠ .error e) :
    (result >>= next) ≠ .error e := by
  cases result with
  | error e' =>
      rintro ⟨⟩
      exact hresult rfl
  | ok x => exact hnext x

namespace Decoding

variable {α β : Type} {read : Decoding α} {c : Cursor}

theorem settled_bind {good : α → Nat → Prop} {next : α → Decoding β} (hread : Settled (read c))
    (hgood : Yields read good)
    (hnext : ∀ x m, good x m → m ≤ c.remaining → Settled (next x (c.skip m))) :
    Settled ((read >>= next) c) := by
  show Settled (EStateM.bind read next c)
  unfold EStateM.bind
  cases hresult : read c with
  | error e c' =>
      rintro name c'' ⟨⟩
      exact hread name c' hresult
  | ok x c' =>
      obtain ⟨m, hm, rfl, hx⟩ := hgood _ _ _ hresult
      exact hnext x m hx hm

theorem settled_wire (read : Wire.Read α) (c : Cursor) : Settled (wire read c) := by
  intro name c' h
  unfold wire at h
  split at h <;> cases h

theorem settled_ofExcept {result : Except CodecError α}
    (h : ∀ name, result ≠ .error (.endless name)) (c : Cursor) :
    Settled ((ofExcept result : Decoding α) c) := by
  cases result with
  | ok x => exact settled_ok
  | error e =>
      rintro name c' ⟨⟩
      exact h name rfl

theorem settled_map_wire (f : α → β) (read : Wire.Read α) (c : Cursor) :
    Settled ((f <$> wire read) c) := by
  show Settled (EStateM.map f (wire read) c)
  unfold EStateM.map
  cases hresult : wire read c with
  | ok x c' => exact settled_ok
  | error e c' =>
      rintro name c'' ⟨⟩
      exact settled_wire read c name c' hresult

theorem run_ne_endless {bytes : List UInt8} (h : Settled (read (.ofBytes bytes))) (name : String) :
    read.run bytes ≠ .error (.endless name) := by
  unfold run
  split
  · nofun
  · rename_i e c' hresult
    rintro ⟨⟩
    exact h name c' hresult

def SettlesFrom (k : Nat) (read : Decoding α) (c : Cursor) : Prop :=
  ∀ m, k ≤ m → m ≤ c.remaining → Settled (read (c.skip m))

namespace SettlesFrom

variable {k : Nat}

theorem here (h : SettlesFrom 0 read c) : Settled (read c) :=
  h 0 (Nat.le_refl 0) (Nat.zero_le _)

theorem mono {l : Nat} (h : SettlesFrom k read c) (hle : k ≤ l) : SettlesFrom l read c :=
  fun m hm => h m (hle.trans hm)

theorem of_forall (h : ∀ c, Settled (read c)) : SettlesFrom k read c :=
  fun m _ _ => h (c.skip m)

theorem wire (read : Wire.Read α) : SettlesFrom k (Decoding.wire read) c :=
  of_forall (settled_wire read)

theorem map_wire (f : α → β) (read : Wire.Read α) : SettlesFrom k (f <$> Decoding.wire read) c :=
  of_forall (settled_map_wire f read)

theorem bind {good : α → Nat → Prop} {next : α → Decoding β} (hread : SettlesFrom k read c)
    (hgood : Yields read good) (hnext : ∀ x m, good x m → SettlesFrom k (next x) c) :
    SettlesFrom k (read >>= next) c := by
  intro n hn hle
  refine settled_bind (hread n hn hle) hgood fun x m hx hm => ?_
  rw [Cursor.remaining_skip] at hm
  rw [Cursor.skip_skip]
  exact hnext x m hx (n + m) (by omega) (by omega)

theorem bind_pure {good : α → Nat → Prop} {f : α → β} (hread : SettlesFrom k read c)
    (hgood : Yields read good) : SettlesFrom k (do return f (← read)) c :=
  hread.bind hgood fun _ _ _ => of_forall fun _ => settled_ok

theorem ite {p : Prop} [Decidable p] {other : Decoding α} (hthen : p → SettlesFrom k read c)
    (helse : ¬p → SettlesFrom k other c) : SettlesFrom k (if p then read else other) c := by
  by_cases hp : p
  · simpa only [hp, if_true] using hthen hp
  · simpa only [hp, if_false] using helse hp

theorem items (hread : SettlesFrom k read c) (hforward : Forward read) (n : Nat) :
    SettlesFrom k (Wire.Read.items read n) c := by
  have hfrom : ∀ done : List α, SettlesFrom k (Wire.Read.itemsFrom read n done) c := by
    induction n with
    | zero => exact fun done => of_forall fun _ => settled_ok
    | succ n ih =>
        intro done
        rw [Wire.Read.itemsFrom_succ]
        exact hread.bind hforward fun item _ _ => ih (item :: done)
  exact hfrom []

end SettlesFrom

end Decoding

open Decoding (SettlesFrom)

namespace PlanSet

variable {p : PlanSet}

/-! ## References -/

theorem dispatched_ne_endless (id : UInt32) (name : String) :
    p.dispatched id ≠ .error (.endless name) := by
  unfold dispatched
  split
  · split <;> nofun
  · nofun

theorem typed_ne_endless (site : Site) (type : QualifiedName) (id : UInt32) (name : String) :
    p.typed site type id ≠ .error (.endless name) := by
  unfold typed
  refine bind_ne_error (dispatched_ne_endless id name) fun d => ?_
  simp only
  split <;> nofun

theorem bare_ne_endless (schemaPrefix : String) (type : QualifiedName) (name : String) :
    p.bare schemaPrefix type ≠ .error (.endless name) := by
  unfold bare
  simp only
  split <;> nofun

theorem method_ne_endless (id : UInt32) (name : String) :
    p.method id ≠ .error (.endless name) := by
  unfold method
  refine bind_ne_error (dispatched_ne_endless id name) fun d => ?_
  split <;> nofun

/-! ## Readers that use others -/

section

variable {generic : Decoding Value} {body : DeclarationPlan → Decoding Value} {c : Cursor} {k : Nat}

theorem readPrimitive_settlesFrom (hgeneric : SettlesFrom k generic c) (kind : Primitive) :
    SettlesFrom k (readPrimitive generic kind) c := by
  cases kind with
  | object => exact hgeneric
  | trueLiteral => exact .of_forall fun _ => Decoding.settled_ok
  | _ => exact .map_wire _ _

variable (hgeneric : Forward generic) (hbody : ∀ d ∈ p.declarations, Forward (body d))

include hgeneric hbody

theorem readTyped_settlesFrom (hsettles : SettlesFrom k generic c)
    (hsettles' : ∀ d ∈ p.declarations, SettlesFrom k (body d) c) (site : Site) (type : TypeExpr) :
    SettlesFrom k (readTyped p body generic site type) c := by
  induction type with
  | primitive kind => exact readPrimitive_settlesFrom hsettles kind
  | flag flag inner ih => exact ih
  | var name => exact hsettles
  | vector inner boxed ih =>
      have hinner := readTyped_forward hbody hgeneric site inner
      rw [readTyped_vector]
      refine .bind (.ite (fun _ => .wire _) fun _ => .of_forall fun _ => Decoding.settled_ok)
        (Decoding.forward_vectorMark boxed) fun _ _ _ => ?_
      refine .bind (.wire _) (Decoding.wire_yields Wire.Read.count_yields) fun n _ _ => ?_
      exact (ih.items hinner n).bind_pure (hinner.items n)
  | named name bare =>
      cases bare with
      | true =>
          refine .bind (.of_forall (Decoding.settled_ofExcept (bare_ne_endless _ name)))
            (Decoding.ofExcept_yields _) ?_
          rintro d _ ⟨hd, -⟩
          exact hsettles' d (mem_of_bare hd)
      | false =>
          refine .bind (.wire _) (Decoding.wire_yields Wire.Read.uint32_yields) fun id _ _ => ?_
          refine .bind (.of_forall (Decoding.settled_ofExcept (typed_ne_endless site name id)))
            (Decoding.ofExcept_yields _) ?_
          rintro d _ ⟨hd, -⟩
          exact hsettles' d (mem_of_dispatched (dispatched_of_typed hd))

/-- Without a flag, only what tells its own type and an object without an identifier are read at
once; anything else takes bytes first. -/
theorem readTyped_settles (hsettles : SettlesFrom 0 generic c)
    (hsettles' : ∀ d ∈ p.declarations, SettlesFrom 1 (body d) c) (site : Site) {type : TypeExpr}
    (hflag : type.flag? = none)
    (hbare : ∀ name e, type = .named name true → p.bare site.schemaPrefix name = .ok e →
      Settled (body e c)) :
    Settled (readTyped p body generic site type c) := by
  cases type with
  | primitive kind => exact (readPrimitive_settlesFrom hsettles kind).here
  | flag => cases hflag
  | var name => exact hsettles.here
  | vector inner boxed =>
      have hinner := readTyped_forward hbody hgeneric site inner
      have hitems (n : Nat) : SettlesFrom 1 (do
          return Value.vector (← Wire.Read.items (readTyped p body generic site inner) n)) c :=
        ((readTyped_settlesFrom hgeneric hbody (hsettles.mono (Nat.zero_le 1)) hsettles' site
          inner).items hinner n).bind_pure (hinner.items n)
      have hsettled : Settled
          ((if boxed then wire (Wire.Read.id Wire.vectorId) else pure () : Decoding Unit) c) := by
        cases boxed
        · exact Decoding.settled_ok
        · exact Decoding.settled_wire _ c
      rw [readTyped_vector]
      refine Decoding.settled_bind hsettled (Decoding.forward_vectorMark boxed) fun _ m _ hm => ?_
      refine Decoding.settled_bind (Decoding.settled_wire _ _)
        (Decoding.wire_yields Wire.Read.count_yields) ?_
      rintro n _ ⟨-, rfl⟩ hn
      rw [Cursor.remaining_skip] at hn
      rw [Cursor.skip_skip]
      exact hitems n (m + 4) (by omega) (by omega)
  | named name bare =>
      cases bare with
      | true =>
          refine Decoding.settled_bind (Decoding.settled_ofExcept (bare_ne_endless _ name) c)
            (Decoding.ofExcept_yields _) ?_
          rintro e _ ⟨he, rfl⟩ -
          exact hbare name e rfl he
      | false =>
          refine Decoding.settled_bind (Decoding.settled_wire _ c)
            (Decoding.wire_yields Wire.Read.uint32_yields) ?_
          rintro id _ rfl hid
          refine Decoding.settled_bind (Decoding.settled_ofExcept (typed_ne_endless site name id) _)
            (Decoding.ofExcept_yields _) ?_
          rintro d _ ⟨hd, rfl⟩ -
          exact hsettles' d (mem_of_dispatched (dispatched_of_typed hd)) 4 (by omega) hid

end

section

variable {read : FieldPlan → Decoding Value} {c : Cursor} {k : Nat} {todo : List FieldPlan}
  (htreatment : ∀ f ∈ todo, f.Treatment)

include htreatment

theorem readFields_settlesFrom (hforward : ∀ f ∈ todo, Forward (read f))
    (hsettles : ∀ f ∈ todo, SettlesFrom k (read f) c) (words : List (String × UInt32))
    (fields : Fields) : SettlesFrom k (readFields read words fields todo) c := by
  induction todo generalizing words fields with
  | nil => exact .of_forall fun _ => Decoding.settled_ok
  | cons f rest ih =>
      obtain ⟨hf, htreatment⟩ := List.forall_mem_cons.mp htreatment
      obtain ⟨hfirst, hforward⟩ := List.forall_mem_cons.mp hforward
      obtain ⟨hsettled, hsettles⟩ := List.forall_mem_cons.mp hsettles
      have hrest := ih htreatment hforward hsettles
      cases hf with
      | word _ kind =>
          rw [readFields_word kind]
          exact .bind (.wire _) (Decoding.wire_yields Wire.Read.uint32_yields)
            fun word _ _ => hrest _ _
      | bit kind =>
          rw [readFields_bit kind]
          exact hrest _ _
      | value kind =>
          rw [readFields_value kind]
          exact .ite (fun _ => hsettled.bind hfirst fun v _ _ => hrest _ _) fun _ => hrest _ _

/-- Fields are read to the end if that is so behind the first byte, and if a field that is read
before any byte is, settles. Such a field has no flag. -/
theorem readFields_settles {d : DeclarationPlan} (hplanned : d.layout.IsPlanned)
    {front : List FieldPlan} (hsplit : d.layout.fields = front ++ todo)
    (hfront : ∀ g ∈ front, p.Weightless d g)
    (hread : ∀ f ∈ todo, Yields (read f) fun _ taken =>
      taken = 0 → f.flag? = none → f.valueType ≠ .primitive .trueLiteral → p.Weightless d f)
    (hsettles : ∀ f ∈ todo, SettlesFrom 1 (read f) c)
    (hfirst : ∀ front f back, d.layout.fields = front ++ f :: back →
      (∀ g ∈ front, p.Weightless d g) → f.flag? = none → Settled (read f c))
    (words : List (String × UInt32)) (fields : Fields) :
    Settled (readFields read words fields todo c) := by
  induction todo generalizing front words fields with
  | nil => exact Decoding.settled_ok
  | cons f rest ih =>
      have hsplit' : d.layout.fields = (front ++ [f]) ++ rest := by
        rw [List.append_assoc]
        exact hsplit
      obtain ⟨hf, htreatment⟩ := List.forall_mem_cons.mp htreatment
      obtain ⟨hweight, hread⟩ := List.forall_mem_cons.mp hread
      obtain ⟨-, hsettles⟩ := List.forall_mem_cons.mp hsettles
      have hidle (hweightless : p.Weightless d f) (words : List (String × UInt32))
          (fields : Fields) : Settled (readFields read words fields rest c) := by
        refine ih htreatment hsplit' (fun g hg => ?_) hread hsettles words fields
        rcases List.mem_append.mp hg with hg | hg
        · exact hfront g hg
        · rw [List.mem_singleton.mp hg]
          exact hweightless
      have hbehind := readFields_settlesFrom htreatment
        (fun g hg => .of_yields (hread g hg)) hsettles
      -- A word and a value that takes bytes lead behind the first byte, all else does not.
      cases hf with
      | word _ kind =>
          rw [readFields_word kind]
          refine Decoding.settled_bind (Decoding.settled_wire _ c)
            (Decoding.wire_yields Wire.Read.uint32_yields) ?_
          rintro word _ rfl hword
          exact hbehind _ _ 4 (by omega) hword
      | bit kind =>
          rw [readFields_bit kind]
          exact hidle (.bit kind) _ _
      | value kind _ bit =>
          have hflag : f.flag? = none := by
            refine Layout.flag?_eq_none_of_front hplanned hsplit fun g hg => ?_
            have hmem : g ∈ d.layout.fields := hsplit ▸ List.mem_append_left _ hg
            exact (hfront g hg).type_ne (hplanned.treatment hmem)
          have hthere : isThere words f = true := by
            rw [isThere, hflag]
          rw [readFields_value kind, if_pos hthere]
          refine Decoding.settled_bind (hfirst front f rest hsplit hfront hflag) hweight
            fun v m hm hle => ?_
          rcases Nat.eq_zero_or_pos m with rfl | hpos
          · exact hidle (hm rfl hflag bit) _ _
          · exact hbehind _ _ m hpos hle

end

/-! ## One level deeper -/

section

variable {schemas : List Schema} {capabilities : Capabilities}
  (hp : compile schemas capabilities = .ok p) {depth : Nat} {c : Cursor}
  (hbody : ∀ d ∈ p.declarations, SettlesFrom 1 (readBody p depth d) c)

include hp hbody

/-- A value that tells its own type settles if what stands behind its identifier does. -/
theorem readGeneric_succ_settles (hgeneric : SettlesFrom 1 (readGeneric p depth) c) :
    Settled (readGeneric p (depth + 1) c) := by
  have hforward := (forward hp depth).1
  have hitems {read : Decoding Value} (hread : Forward read) (hsettles : SettlesFrom 1 read c)
      (n : Nat) : SettlesFrom 1 (do return Value.vector (← Wire.Read.items read n)) c :=
    (hsettles.items hread n).bind_pure (hread.items n)
  rw [readGeneric]
  refine Decoding.settled_bind (Decoding.settled_wire _ c)
    (Decoding.wire_yields Wire.Read.peekUInt32_yields) ?_
  rintro id _ rfl -
  rw [Cursor.skip_zero]
  split
  · exact Decoding.settled_bind (Decoding.settled_wire _ c)
      (Decoding.wire_yields Wire.Read.bool_yields) fun _ _ _ _ => Decoding.settled_ok
  split
  · refine Decoding.settled_bind (Decoding.settled_wire _ c)
      (Decoding.wire_yields (Wire.Read.skip_yields 4)) ?_
    rintro _ _ rfl hskip
    refine SettlesFrom.bind (k := 1) (.wire _) (Decoding.wire_yields Wire.Read.count_yields)
      (fun n _ _ => ?_) 4 (by omega) hskip
    refine .bind (.of_forall fun _ => Decoding.settled_ok) Decoding.get_yields fun _ _ _ => ?_
    refine .ite (fun _ => hitems Decoding.forward_long (.map_wire _ _) n) fun _ => ?_
    exact .ite (fun _ => hitems Decoding.forward_int (.map_wire _ _) n)
      fun _ => hitems hforward hgeneric n
  split
  · exact Decoding.settled_bind (Decoding.settled_wire _ c)
      (Decoding.wire_yields JsonValue.read_yields) fun _ _ _ _ => Decoding.settled_ok
  · refine Decoding.settled_bind (Decoding.settled_wire _ c)
      (Decoding.wire_yields Wire.Read.uint32_yields) ?_
    rintro id' _ rfl hid
    refine SettlesFrom.bind (k := 1)
      (.of_forall (Decoding.settled_ofExcept (dispatched_ne_endless id')))
      (Decoding.ofExcept_yields _) ?_ 4 (by omega) hid
    rintro d _ ⟨hd, -⟩
    exact hbody d (mem_of_dispatched hd)

/-- An object settles if what stands behind its first byte does, and what it opens. -/
theorem readBody_succ_settles (hgeneric : SettlesFrom 0 (readGeneric p depth) c)
    {d : DeclarationPlan} (hd : d ∈ p.declarations)
    (hopens : ∀ e, p.Opens d e → Settled (readBody p depth e c)) :
    Settled (readBody p (depth + 1) d c) := by
  have hplanned := planned_of_mem hp hd
  obtain ⟨hforward, hforwards⟩ := forward hp depth
  have hweighs := depthWeighs hp depth
  have hbehind (f : FieldPlan) : SettlesFrom 1 (p.fieldReader depth d f) c :=
    readTyped_settlesFrom hforward hforwards (hgeneric.mono (Nat.zero_le 1)) hbody _ _
  rw [readBody_succ]
  refine Decoding.settled_bind ?_ (readFields_forward (fun f hf => hplanned.treatment hf)
    (fun f _ => readTyped_forward hforwards hforward _ _) [] []) fun _ _ _ _ => Decoding.settled_ok
  refine readFields_settles (fun f hf => hplanned.treatment hf) hplanned (List.nil_append _).symm
    nofun (fun f _ => fieldReader_yields_weight hweighs d f) (fun f _ => hbehind f) ?_ [] []
  intro front f back hsplit hfront hflag
  have htype : f.valueType.flag? = none := by
    rw [FieldPlan.valueType, TypeExpr.erased_of_flag?_eq_none hflag]
    exact hflag
  refine readTyped_settles hforward hforwards hgeneric hbody _ htype fun name e hname hbare => ?_
  exact hopens e ⟨front, f, back, hsplit, hfront, hflag, name, hname, hbare⟩

end

end PlanSet

end TypeLang
