import TypeLang.Proofs.Codec.Depth
import TypeLang.Proofs.Codec.Extension.References
import TypeLang.Proofs.Codec.Size

/-!
# Adding schemas

A plan set and a larger one go through the same values and the same bytes side by side. As long as
the smaller one meets no unknown identifier, both take the same steps, because all that either of
them looks up is a reference of a declaration that both have. What is written, counted and read is
therefore the same (`codec_extends`). The larger plan set may read deeper; this does not matter where
reading comes to an end.
-/

namespace TypeLang

open Wire (Cursor)

/-! ## Writing -/

namespace Output

def Kept (first second : Output) : Prop :=
  (∀ id, first.failure ≠ some (.unknownId id)) → second = first

variable {a a' b b' : Output}

theorem Kept.refl (o : Output) : Kept o o :=
  fun _ => rfl

theorem Kept.append (ha : Kept a a') (hb : Kept b b') : Kept (a ++ b) (a' ++ b') := by
  obtain ⟨front, _ | e⟩ := a
  · intro hknown
    obtain rfl := ha fun id h => nomatch h
    rw [hb hknown]
  · intro hknown
    rw [ha hknown]
    rfl

end Output

namespace PlanSet

variable {p q : PlanSet}

structure WritingKept (p q : PlanSet) (v : Value) : Prop where
  generic : ∀ site, (p.writeGeneric site v).Kept (q.writeGeneric site v)
  typed : ∀ site type, p.Covers site.schemaPrefix →
    (p.writeTyped site type v).Kept (q.writeTyped site type v)

theorem kept_write_with {found found' : Except CodecError DeclarationPlan}
    {write write' : DeclarationPlan → Output} :
    Kept found found' → (∀ d, found = .ok d → (write d).Kept (write' d)) →
    Output.Kept (match found with | .ok d => write d | .error e => .failed e)
      (match found' with | .ok d => write' d | .error e => .failed e) := by
  intro h hwrite hknown
  have hfound : ∀ id, found ≠ .error (.unknownId id) := by
    rintro id rfl
    exact hknown id rfl
  obtain rfl := h hfound
  cases found' with
  | error e => rfl
  | ok d => exact hwrite d rfl hknown

theorem kept_writeItems {items : List Value} (hitems : ∀ item ∈ items, p.WritingKept q item)
    {site : Site} {type : TypeExpr} (hcovers : p.Covers site.schemaPrefix) :
    (p.writeItems site type items).Kept (q.writeItems site type items) := by
  induction items with
  | nil =>
      rw [writeItems, writeItems]
      exact .refl _
  | cons item items ih =>
      rw [writeItems, writeItems]
      exact ((hitems item List.mem_cons_self).typed site type hcovers).append
        (ih fun other hother => hitems other (List.mem_cons_of_mem _ hother))

theorem kept_writeGenericItems {items : List Value} (hitems : ∀ item ∈ items, p.WritingKept q item)
    {site : Site} : (p.writeGenericItems site items).Kept (q.writeGenericItems site items) := by
  induction items with
  | nil =>
      rw [writeGenericItems, writeGenericItems]
      exact .refl _
  | cons item items ih =>
      have hitem := (hitems item List.mem_cons_self).generic site
      have hrest := ih fun other hother => hitems other (List.mem_cons_of_mem _ hother)
      cases item with
      | int v =>
          rw [writeGenericItems, writeGenericItems]
          exact (Output.Kept.refl _).append hrest
      | long v =>
          rw [writeGenericItems, writeGenericItems]
          exact (Output.Kept.refl _).append hrest
      | _ =>
          simp only [writeGenericItems]
          exact hitem.append hrest

theorem kept_writeFields {d : DeclarationPlan} (hd : d ∈ p.declarations) {fields : Fields}
    (hfields : ∀ name v, fields.get? name = some v → p.WritingKept q v) (todo : List FieldPlan) :
    (p.writeFields d fields todo).Kept (q.writeFields d fields todo) := by
  induction todo with
  | nil =>
      rw [writeFields_nil, writeFields_nil]
      exact .refl _
  | cons f rest ih =>
      rw [writeFields_cons, writeFields_cons]
      refine Output.Kept.append ?_ ih
      unfold writeField
      split
      · exact .refl _
      · exact .refl _
      · split
        · rename_i v hv
          exact (hfields _ v hv).typed _ _ (covers_site hd f)
        · exact .refl _

section

variable (h : p.Extends q) {v : Value} (hparts : ∀ w, sizeOf w < sizeOf v → p.WritingKept q w)

include h hparts

theorem kept_writeGeneric (site : Site) :
    (p.writeGeneric site v).Kept (q.writeGeneric site v) := by
  cases v with
  | object id fields =>
      rw [writeGeneric, writeGeneric]
      refine kept_write_with (h.dispatched id) fun d hd => ?_
      exact (Output.Kept.refl _).append (kept_writeFields (mem_of_dispatched hd)
        (fun _ w hw => hparts w (sizeOf_lt_of_get?_object hw)) _)
  | vector items =>
      rw [writeGeneric, writeGeneric]
      exact (Output.Kept.refl _).append
        (kept_writeGenericItems fun item hitem => hparts item (sizeOf_lt_of_mem_vector hitem))
  | _ =>
      simp only [writeGeneric]
      exact .refl _

theorem kept_writeTyped {site : Site} (hcovers : p.Covers site.schemaPrefix) (type : TypeExpr) :
    (p.writeTyped site type v).Kept (q.writeTyped site type v) := by
  induction type with
  | primitive kind =>
      by_cases hkind : kind = .object
      · subst hkind
        rw [writeTyped, writeTyped]
        exact kept_writeGeneric h hparts site
      · rw [writeTyped_primitive hkind, writeTyped_primitive hkind]
        exact .refl _
  | flag flag inner ih =>
      rw [writeTyped, writeTyped]
      exact ih
  | var name =>
      rw [writeTyped, writeTyped]
      split
      · exact kept_writeGeneric h hparts site
      · exact .refl _
  | vector inner boxed ih =>
      cases v with
      | vector items =>
          rw [writeTyped, writeTyped]
          exact (Output.Kept.refl _).append (kept_writeItems
            (fun item hitem => hparts item (sizeOf_lt_of_mem_vector hitem)) hcovers)
      | _ =>
          simp only [writeTyped]
          exact .refl _
  | named name bare =>
      cases v with
      | object id fields =>
          have hfields {d : DeclarationPlan} (hd : d ∈ p.declarations) :
              (p.writeFields d fields d.layout.fields).Kept
                (q.writeFields d fields d.layout.fields) :=
            kept_writeFields hd (fun _ w hw => hparts w (sizeOf_lt_of_get?_object hw)) _
          cases bare with
          | true =>
              rw [writeTyped, writeTyped]
              exact kept_write_with (.of_eq (h.bare _ name hcovers))
                fun d hd => hfields (mem_of_bare hd)
          | false =>
              rw [writeTyped, writeTyped]
              exact kept_write_with (h.typed site name id hcovers) fun d hd =>
                (Output.Kept.refl _).append
                  (hfields (mem_of_dispatched (dispatched_of_typed hd)))
      | _ =>
          simp only [writeTyped]
          exact .refl _

end

theorem writingKept (h : p.Extends q) (v : Value) : p.WritingKept q v := by
  have hparts : ∀ w, sizeOf w < sizeOf v → p.WritingKept q w := fun w _ => writingKept h w
  exact ⟨fun site => kept_writeGeneric h hparts site,
    fun _ type hcovers => kept_writeTyped h hparts hcovers type⟩
termination_by sizeOf v

/-! ## Counting -/

structure CountingKept (p q : PlanSet) (v : Value) : Prop where
  generic : ∀ site, Kept (p.genericSize site v) (q.genericSize site v)
  typed : ∀ site type, p.Covers site.schemaPrefix →
    Kept (p.typedSize site type v) (q.typedSize site type v)

theorem kept_itemsSize {items : List Value} (hitems : ∀ item ∈ items, p.CountingKept q item)
    {site : Site} {type : TypeExpr} (hcovers : p.Covers site.schemaPrefix) :
    Kept (p.itemsSize site type items) (q.itemsSize site type items) := by
  induction items with
  | nil =>
      rw [itemsSize, itemsSize]
      exact .refl _
  | cons item items ih =>
      have hrest := ih fun other hother => hitems other (List.mem_cons_of_mem _ hother)
      rw [itemsSize, itemsSize]
      exact ((hitems item List.mem_cons_self).typed site type hcovers).bind
        fun _ _ => hrest.bind fun _ _ => .refl _

theorem kept_genericItemsSize {items : List Value} (hitems : ∀ item ∈ items, p.CountingKept q item)
    {site : Site} : Kept (p.genericItemsSize site items) (q.genericItemsSize site items) := by
  induction items with
  | nil =>
      rw [genericItemsSize, genericItemsSize]
      exact .refl _
  | cons item items ih =>
      have hitem := (hitems item List.mem_cons_self).generic site
      have hrest := ih fun other hother => hitems other (List.mem_cons_of_mem _ hother)
      cases item with
      | int v =>
          rw [genericItemsSize, genericItemsSize]
          exact hrest.bind fun _ _ => .refl _
      | long v =>
          rw [genericItemsSize, genericItemsSize]
          exact hrest.bind fun _ _ => .refl _
      | _ =>
          simp only [genericItemsSize]
          exact hitem.bind fun _ _ => hrest.bind fun _ _ => .refl _

theorem kept_objectSize {d : DeclarationPlan} (hd : d ∈ p.declarations) {fields : Fields}
    (hfields : ∀ name v, fields.get? name = some v → p.CountingKept q v) :
    Kept (p.objectSize d fields) (q.objectSize d fields) := by
  have hprobe : ∀ probe, Kept (p.probeSize d fields probe) (q.probeSize d fields probe) := by
    intro probe
    unfold probeSize
    split
    · exact .refl _
    · rename_i f _
      split
      · exact .refl _
      · rename_i v hv
        split
        · exact .refl _
        · exact (hfields _ v hv).typed _ _ (covers_site hd f)
  have hprobes : ∀ probes, Kept (p.probesSize d fields probes) (q.probesSize d fields probes) := by
    intro probes
    induction probes with
    | nil =>
        rw [probesSize, probesSize]
        exact .refl _
    | cons probe rest ih =>
        rw [probesSize, probesSize]
        exact (hprobe probe).bind fun _ _ => ih.bind fun _ _ => .refl _
  rw [objectSize, objectSize]
  exact (hprobes _).bind fun _ _ => .refl _

section

variable (h : p.Extends q) {v : Value} (hparts : ∀ w, sizeOf w < sizeOf v → p.CountingKept q w)

include h hparts

theorem kept_genericSize (site : Site) :
    Kept (p.genericSize site v) (q.genericSize site v) := by
  cases v with
  | object id fields =>
      rw [genericSize, genericSize]
      exact (h.dispatched id).bind fun d hd => kept_objectSize (mem_of_dispatched hd)
        fun _ w hw => hparts w (sizeOf_lt_of_get?_object hw)
  | vector items =>
      rw [genericSize, genericSize]
      exact (kept_genericItemsSize fun item hitem =>
        hparts item (sizeOf_lt_of_mem_vector hitem)).bind fun _ _ => .refl _
  | _ =>
      simp only [genericSize]
      exact .refl _

theorem kept_typedSize {site : Site} (hcovers : p.Covers site.schemaPrefix) (type : TypeExpr) :
    Kept (p.typedSize site type v) (q.typedSize site type v) := by
  induction type with
  | primitive kind =>
      by_cases hkind : kind = .object
      · subst hkind
        rw [typedSize, typedSize]
        exact kept_genericSize h hparts site
      · rw [typedSize_primitive hkind, typedSize_primitive hkind]
        exact .refl _
  | flag flag inner ih =>
      rw [typedSize, typedSize]
      exact ih
  | var name =>
      rw [typedSize, typedSize]
      exact kept_genericSize h hparts site
  | vector inner boxed ih =>
      cases v with
      | vector items =>
          rw [typedSize, typedSize]
          exact (kept_itemsSize (fun item hitem => hparts item (sizeOf_lt_of_mem_vector hitem))
            hcovers).bind fun _ _ => .refl _
      | _ =>
          simp only [typedSize]
          exact .refl _
  | named name bare =>
      cases v with
      | object id fields =>
          have hobject {d : DeclarationPlan} (hd : d ∈ p.declarations) :
              Kept (p.objectSize d fields) (q.objectSize d fields) :=
            kept_objectSize hd fun _ w hw => hparts w (sizeOf_lt_of_get?_object hw)
          cases bare with
          | true =>
              rw [typedSize, typedSize]
              exact (Kept.of_eq (h.bare _ name hcovers)).bind fun d hd =>
                (hobject (mem_of_bare hd)).bind fun _ _ => .refl _
          | false =>
              rw [typedSize, typedSize]
              exact (h.typed site name id hcovers).bind fun d hd =>
                hobject (mem_of_dispatched (dispatched_of_typed hd))
      | _ =>
          simp only [typedSize]
          exact .refl _

end

theorem countingKept (h : p.Extends q) (v : Value) : p.CountingKept q v := by
  have hparts : ∀ w, sizeOf w < sizeOf v → p.CountingKept q w := fun w _ => countingKept h w
  exact ⟨fun site => kept_genericSize h hparts site,
    fun _ type hcovers => kept_typedSize h hparts hcovers type⟩
termination_by sizeOf v

end PlanSet

/-! ## Reading -/

namespace Decoding

variable {α β : Type}

def Known (result : EStateM.Result CodecError Cursor α) : Prop :=
  ∀ id c, result ≠ .error (.unknownId id) c

/-- Wherever the first reader meets no unknown identifier, the second one gives the same. -/
def Keeps (first second : Decoding α) : Prop :=
  ∀ c, Known (first c) → second c = first c

namespace Keeps

variable {first second : Decoding α}

theorem refl (read : Decoding α) : Keeps read read :=
  fun _ _ => rfl

theorem bind {next next' : α → Decoding β} (h : Keeps first second)
    (hnext : ∀ x, Keeps (next x) (next' x)) : Keeps (first >>= next) (second >>= next') := by
  intro c hknown
  have hfirst : Known (first c) := by
    intro id c' herror
    apply hknown id c'
    show EStateM.bind first next c = _
    rw [EStateM.bind, herror]
  have hbind : Known (EStateM.bind first next c) := hknown
  show EStateM.bind second next' c = EStateM.bind first next c
  unfold EStateM.bind at hbind ⊢
  rw [h c hfirst]
  cases hresult : first c with
  | error e c' => rfl
  | ok x c' =>
      rw [hresult] at hbind
      exact hnext x c' hbind

theorem bind_ofExcept {found found' : Except CodecError α} {next next' : α → Decoding β}
    (h : Kept found found') (hnext : ∀ x, found = .ok x → Keeps (next x) (next' x)) :
    Keeps (do next (← ofExcept found)) (do next' (← ofExcept found')) := by
  intro c hknown
  have hfound : ∀ id, found ≠ .error (.unknownId id) := by
    rintro id rfl
    exact hknown id c rfl
  rw [h hfound]
  cases found with
  | error e => rfl
  | ok x => exact hnext x rfl c hknown

theorem ite {p : Prop} [Decidable p] {first' second' : Decoding α} (hthen : Keeps first second)
    (helse : Keeps first' second') :
    Keeps (if p then first else first') (if p then second else second') := by
  by_cases hp : p
  · simpa only [hp, if_true] using hthen
  · simpa only [hp, if_false] using helse

theorem items (h : Keeps first second) (n : Nat) :
    Keeps (Wire.Read.items first n) (Wire.Read.items second n) := by
  have hfrom : ∀ done : List α,
      Keeps (Wire.Read.itemsFrom first n done) (Wire.Read.itemsFrom second n done) := by
    induction n with
    | zero => exact fun done => refl _
    | succ n ih =>
        intro done
        rw [Wire.Read.itemsFrom_succ, Wire.Read.itemsFrom_succ]
        exact h.bind fun item => ih (item :: done)
  exact hfrom []

end Keeps

end Decoding

open Decoding (Keeps Known Settled Agrees wire)

namespace PlanSet

variable {p q : PlanSet}

section

variable (h : p.Extends q) {body body' : DeclarationPlan → Decoding Value}
  {generic generic' : Decoding Value} (hbody : ∀ d ∈ p.declarations, Keeps (body d) (body' d))
  (hgeneric : Keeps generic generic')

include h hbody hgeneric

theorem keeps_readTyped {site : Site} (hcovers : p.Covers site.schemaPrefix) (type : TypeExpr) :
    Keeps (readTyped p body generic site type) (readTyped q body' generic' site type) := by
  induction type with
  | primitive kind =>
      cases kind with
      | object => exact hgeneric
      | _ => exact .refl _
  | flag flag inner ih => exact ih
  | var name => exact hgeneric
  | vector inner boxed ih =>
      rw [readTyped_vector, readTyped_vector]
      refine (Keeps.refl _).bind fun _ => (Keeps.refl _).bind fun n => ?_
      exact (ih.items n).bind fun _ => .refl _
  | named name bare =>
      cases bare with
      | true =>
          exact .bind_ofExcept (.of_eq (h.bare _ name hcovers)) fun d hd => hbody d (mem_of_bare hd)
      | false =>
          refine (Keeps.refl _).bind fun id => ?_
          exact .bind_ofExcept (h.typed site name id hcovers) fun d hd =>
            hbody d (mem_of_dispatched (dispatched_of_typed hd))

end

theorem keeps_readFields {read read' : FieldPlan → Decoding Value}
    (hread : ∀ f, Keeps (read f) (read' f))
    (words : List (String × UInt32)) (fields : Fields) (todo : List FieldPlan) :
    Keeps (readFields read words fields todo) (readFields read' words fields todo) := by
  induction todo generalizing words fields with
  | nil => exact .refl _
  | cons f rest ih =>
      have hvalue (hkind : (∃ size, f.kind = .fixed size) ∨ f.kind = .dynamic) :
          Keeps (readFields read words fields (f :: rest))
            (readFields read' words fields (f :: rest)) := by
        rw [readFields_value hkind, readFields_value hkind]
        exact .ite ((hread f).bind fun value => ih _ _) (ih _ _)
      cases hkind : f.kind with
      | flagsWord unused =>
          rw [readFields_word hkind, readFields_word hkind]
          exact (Keeps.refl _).bind fun word => ih _ _
      | trueBit =>
          rw [readFields_bit hkind, readFields_bit hkind]
          exact ih _ _
      | fixed size => exact hvalue (.inl ⟨size, hkind⟩)
      | dynamic => exact hvalue (.inr hkind)

theorem keeps_readers (h : p.Extends q) (depth : Nat) :
    Keeps (readGeneric p depth) (readGeneric q depth) ∧
      ∀ d ∈ p.declarations, Keeps (readBody p depth d) (readBody q depth d) := by
  induction depth with
  | zero =>
      refine ⟨?_, fun d _ => ?_⟩
      · rw [readGeneric, readGeneric]
        exact .refl _
      · rw [readBody, readBody]
        exact .refl _
  | succ depth ih =>
      obtain ⟨hgeneric, hbody⟩ := ih
      constructor
      · rw [readGeneric, readGeneric]
        refine (Keeps.refl _).bind fun id => .ite (.refl _) (.ite ?_ (.ite (.refl _) ?_))
        · refine (Keeps.refl _).bind fun _ => (Keeps.refl _).bind fun n => ?_
          refine (Keeps.refl _).bind fun c => .ite (.refl _) (.ite (.refl _) ?_)
          exact (hgeneric.items n).bind fun _ => .refl _
        · refine (Keeps.refl _).bind fun id => ?_
          exact .bind_ofExcept (h.dispatched id) fun d hd => hbody d (mem_of_dispatched hd)
      · intro d hd
        rw [readBody_succ, readBody_succ]
        refine (keeps_readFields (fun f => ?_) [] [] _).bind fun _ => .refl _
        exact keeps_readTyped h hbody hgeneric (covers_site hd f) _

/-! ## Reading deeper -/

def Endless {α : Type} (result : EStateM.Result CodecError Cursor α) : Prop :=
  ∃ name c, result = .error (.endless name) c

theorem endless_of_not_settled {α : Type} {result : EStateM.Result CodecError Cursor α}
    (h : ¬Settled result) : Endless result := by
  simp only [Settled, ne_eq, not_forall, not_not] at h
  exact h

/-- What a reader of some depth gives is kept by a reader that may go deeper. -/
def KeptDeeper {α : Type} (first second : EStateM.Result CodecError Cursor α) : Prop :=
  second = first ∨ (∃ id c, first = .error (.unknownId id) c) ∨ (Endless first ∧ Endless second)

theorem keptDeeper {α : Type} {first deeper second : Decoding α} {c : Cursor}
    (hdeeper : Agrees first deeper c) (hback : Agrees deeper first c) (hkeeps : Keeps deeper second) :
    KeptDeeper (first c) (second c) := by
  have hdeeper : Settled (first c) → deeper c = first c := hdeeper 0 (Nat.zero_le _)
  have hback : Settled (deeper c) → first c = deeper c := hback 0 (Nat.zero_le _)
  by_cases hsettled : Settled (first c)
  · by_cases hknown : Known (first c)
    · have hsame := hdeeper hsettled
      refine .inl ?_
      rw [hkeeps c (by rwa [hsame]), hsame]
    · simp only [Known, ne_eq, not_forall, not_not] at hknown
      exact .inr (.inl hknown)
  · -- The deeper reading does not come to an end either, and so meets no unknown identifier.
    have hdeep : ¬Settled (deeper c) := fun h => hsettled (by rwa [hback h])
    obtain ⟨name, c', herror⟩ := endless_of_not_settled hdeep
    have hsame : second c = deeper c := by
      apply hkeeps
      intro id other h
      rw [herror] at h
      cases h
    refine .inr (.inr ⟨endless_of_not_settled hsettled, name, c', ?_⟩)
    rw [hsame, herror]

theorem run_keptDeeper {α : Type} {first second : Decoding α} {bytes : List UInt8}
    (h : KeptDeeper (first (.ofBytes bytes)) (second (.ofBytes bytes))) :
    second.run bytes = first.run bytes ∨ (∃ id, first.run bytes = .error (.unknownId id)) ∨
      (∃ name, first.run bytes = .error (.endless name)) ∧
        ∃ name, second.run bytes = .error (.endless name) := by
  obtain hsame | ⟨id, c, hid⟩ | ⟨⟨name, c, hname⟩, name', c', hname'⟩ := h
  · exact .inl (by simp only [Decoding.run, hsame])
  · exact .inr (.inl ⟨id, by simp only [Decoding.run, hid]⟩)
  · exact .inr (.inr ⟨⟨name, by simp only [Decoding.run, hname]⟩,
      name', by simp only [Decoding.run, hname']⟩)

section

variable {schemas : List Schema} {capabilities : Capabilities}
  (hp : compile schemas capabilities = .ok p) (h : p.Extends q)

theorem maxDepth_le (h : p.Extends q) (n : Nat) : p.maxDepth n ≤ q.maxDepth n :=
  Nat.mul_le_mul_left _ (Nat.add_le_add_right h.length 2)

include hp h

theorem decodeFrom_keptDeeper (c : Cursor) : KeptDeeper (p.decodeFrom c) (q.decodeFrom c) := by
  have hdeeper := (depthsAgree_of_le hp (maxDepth_le h c.remaining) c).1
  have hback := (read_maxDepth hp c (q.maxDepth c.remaining)).1
  have hread := keptDeeper hdeeper hback (keeps_readers h _).1
  exact hread

theorem readTyped_keptDeeper {site : Site} (hcovers : p.Covers site.schemaPrefix) (type : TypeExpr)
    {c : Cursor} {n : Nat} (hn : c.remaining = n) :
    KeptDeeper
      (readTyped p (readBody p (p.maxDepth n)) (readGeneric p (p.maxDepth n)) site type c)
      (readTyped q (readBody q (q.maxDepth n)) (readGeneric q (q.maxDepth n)) site type c) := by
  subst hn
  obtain ⟨hgeneric, hbody⟩ := depthsAgree_of_le hp (maxDepth_le h c.remaining) c
  obtain ⟨hgeneric', hbody'⟩ := read_maxDepth hp c (q.maxDepth c.remaining)
  obtain ⟨hforward, hforwards⟩ := forward hp (p.maxDepth c.remaining)
  obtain ⟨hforward', hforwards'⟩ := forward hp (q.maxDepth c.remaining)
  obtain ⟨hkeeps, hkeepsBody⟩ := keeps_readers h (q.maxDepth c.remaining)
  exact keptDeeper (readTyped_agrees hbody hforwards hgeneric hforward site type)
    (readTyped_agrees hbody' hforwards' hgeneric' hforward' site type)
    (keeps_readTyped h hkeepsBody hkeeps hcovers type)

end

/-! ## The codec -/

/-- Whatever a codec does without meeting an unknown identifier, another one does too. Of a reading
that does not come to an end it is only kept that it does not. -/
structure CodecKept (p q : PlanSet) : Prop where
  encode : ∀ v, q.encode v = p.encode v ∨ ∃ id, p.encode v = .error (.unknownId id)
  size : ∀ v, q.size v = p.size v ∨ ∃ id, p.size v = .error (.unknownId id)
  /-- The value or the error, and the position. -/
  decodeFrom : ∀ c, KeptDeeper (p.decodeFrom c) (q.decodeFrom c)
  decodeResult : ∀ id bytes, q.decodeResult id bytes = p.decodeResult id bytes ∨
    (∃ unknown, p.decodeResult id bytes = .error (.unknownId unknown)) ∨
    (∃ name, p.decodeResult id bytes = .error (.endless name)) ∧
      ∃ name, q.decodeResult id bytes = .error (.endless name)

theorem encode_kept (h : p.Extends q) (v : Value) :
    q.encode v = p.encode v ∨ ∃ id, p.encode v = .error (.unknownId id) := by
  by_cases hknown : ∀ id, (p.write v).failure ≠ some (.unknownId id)
  · exact .inl (congrArg Output.toExcept ((writingKept h v).generic _ hknown))
  · simp only [ne_eq, not_forall, not_not] at hknown
    obtain ⟨id, hid⟩ := hknown
    exact .inr ⟨id, Output.toExcept_eq_error.mpr hid⟩

theorem kept_method (h : p.Extends q) (id : UInt32) : Kept (p.method id) (q.method id) :=
  (h.dispatched id).bind fun _ _ => .refl _

theorem mem_of_method {d : DeclarationPlan} {id : UInt32} (h : p.method id = .ok d) :
    d ∈ p.declarations := by
  obtain ⟨found, hfound, h⟩ := bind_eq_ok.mp h
  split at h
  · cases h
    exact mem_of_dispatched hfound
  · cases h

theorem decodeResult_of_method {d : DeclarationPlan} {id : UInt32} (h : p.method id = .ok d)
    (bytes : List UInt8) :
    p.decodeResult id bytes =
      (readTyped p (readBody p (p.maxDepth bytes.length)) (readGeneric p (p.maxDepth bytes.length))
        ⟨d.schemaPrefix, "result"⟩ d.result).run bytes := by
  rw [decodeResult, h]
  rfl

theorem decodeResult_of_error {e : CodecError} {id : UInt32} (h : p.method id = .error e)
    (bytes : List UInt8) : p.decodeResult id bytes = .error e := by
  rw [decodeResult, h]
  rfl

theorem codecKept {schemas : List Schema} {capabilities : Capabilities}
    (hp : compile schemas capabilities = .ok p) (h : p.Extends q) : p.CodecKept q where
  encode := encode_kept h
  size v := ((countingKept h v).generic .top).eq_or
  decodeFrom := decodeFrom_keptDeeper hp h
  decodeResult := by
    intro id bytes
    rcases (kept_method h id).eq_or with hsame | ⟨unknown, hunknown⟩
    · cases hmethod : p.method id with
      | error e =>
          rw [hmethod] at hsame
          exact .inl (by rw [decodeResult_of_error hmethod, decodeResult_of_error hsame])
      | ok d =>
          rw [hmethod] at hsame
          have hcovers : p.Covers (Site.mk d.schemaPrefix "result").schemaPrefix :=
            ⟨d, mem_of_method hmethod, rfl⟩
          rw [decodeResult_of_method hmethod, decodeResult_of_method hsame]
          exact run_keptDeeper (readTyped_keptDeeper hp h hcovers d.result rfl)
    · exact .inr (.inl ⟨unknown, decodeResult_of_error hunknown bytes⟩)

/-- Schemas with other prefixes change nothing of what a codec did without them, except that an
identifier may have become known. -/
theorem codec_extends {front back : List Schema} {capabilities : Capabilities}
    (happart : Schema.Apart front back) (hp : compile front capabilities = .ok p)
    (hq : compile (front ++ back) capabilities = .ok q) : p.CodecKept q :=
  codecKept hp (extends_of_compile happart hp hq)

def connected : PlanSet :=
  (compile [.people, .transport] {}).toOption.getD default

theorem compile_connected : compile [.people, .transport] {} = .ok connected := by
  rfl

/-- With the transport there are its places, and nothing else changes. -/
theorem codec_extends_connected :
    people.CodecKept connected ∧
      people.decode [3, 0, 0, 0, 1, 97, 0, 0] = .error (.unknownId 3) ∧
      connected.decode [3, 0, 0, 0, 1, 97, 0, 0] = .ok (.object 3 [("address", .string "a")]) := by
  have happart : Schema.Apart [.people] [.transport] := by decide
  refine ⟨codec_extends happart compile_people compile_connected, ?_, ?_⟩
  · cbv
  · cbv

end PlanSet

end TypeLang
