import TypeLang.Declaration.Reader
import TypeLang.Proofs.Token.Grouping

/-!
# Putting declarations together

The reader of declarations sees complete groups only. Of the tokens of a declaration it makes what
`Signature.declaration` says (`DeclarationReader.named_of_kinds`), so that it never meets a token
out of place: each error it gives is the lexer's, or a name or a type is at fault
(`DeclarationReader.itemsFrom_of_group`).
-/

namespace TypeLang

open DeclarationReader

/-- The declaration of a signature, with its parameters read in order and its result last. -/
def Signature.declaration (sig : Signature) (category : Category) :
    Except ParseError Declaration :=
  match QualifiedName.parse? sig.name.toList with
  | none => .error (.type sig.name none (.name sig.name))
  | some name => do
    let start : Draft := ⟨category, sig.name, name, sig.id, sig.vars.reverse, []⟩
    let draft ← sig.params.foldlM (fun d param => d.addParam param.1 param.2) start
    draft.finish sig.result

def Signature.param (category : Category) (declared : List String) (spelling : String)
    (param : String × String) : Except ParseError Parameter :=
  match TypeExpr.parse category declared param.2 with
  | .ok t => .ok ⟨param.1, t⟩
  | .error fault => .error (.type spelling (some param.1) fault)

theorem DeclarationReader.foldlM_addParam (params : List (String × String)) (d : Draft) :
    params.foldlM (fun d param => Draft.addParam d param.1 param.2) d =
      (params.mapM (Signature.param d.category d.declared.reverse d.spelling)).map
        fun read => { d with params := read.reverse ++ d.params } := by
  induction params generalizing d with
  | nil => rfl
  | cons param params ih =>
      have hadd : d.addParam param.1 param.2 =
          (Signature.param d.category d.declared.reverse d.spelling param).map
            fun read => { d with params := read :: d.params } := by
        unfold Draft.addParam Signature.param
        cases TypeExpr.parse d.category d.declared.reverse param.2 <;> rfl
      rw [List.foldlM_cons, List.mapM_cons, hadd]
      cases Signature.param d.category d.declared.reverse d.spelling param with
      | error e => rfl
      | ok first =>
          refine (ih { d with params := first :: d.params }).trans ?_
          cases params.mapM (Signature.param d.category d.declared.reverse d.spelling) with
          | error e => rfl
          | ok read =>
              change Except.ok { d with params := read.reverse ++ first :: d.params } =
                Except.ok { d with params := (first :: read).reverse ++ d.params }
              rw [List.reverse_cons, List.append_assoc]
              rfl

/-- The name is read first, then the parameters in order, and the result last. -/
theorem Signature.declaration_eq (sig : Signature) (category : Category) :
    sig.declaration category =
      match QualifiedName.parse? sig.name.toList with
      | none => .error (.type sig.name none (.name sig.name))
      | some name =>
        sig.params.mapM (Signature.param category sig.vars sig.name) >>= fun params =>
          match TypeExpr.parseResult category sig.vars sig.result with
          | .ok result => .ok ⟨category, sig.id, name, params, result⟩
          | .error fault => .error (.type sig.name none fault) := by
  unfold Signature.declaration
  cases QualifiedName.parse? sig.name.toList with
  | none => rfl
  | some name =>
      simp only [foldlM_addParam, List.reverse_reverse]
      cases sig.params.mapM (Signature.param category sig.vars sig.name) with
      | error e => rfl
      | ok params =>
          simp only [Except.map, List.append_nil]
          change Draft.finish _ sig.result = _
          unfold Draft.finish
          simp only [List.reverse_reverse]
          cases TypeExpr.parseResult category sig.vars sig.result <;> rfl

namespace DeclarationReader

/-! ## The tokens of one declaration -/

abbrev leaving (s : Lexer) (pending : List Token) : Lexer :=
  { s with pending }

theorem expectToken_of_pending {s : Lexer} {token : Token} {rest : List Token}
    (h : s.pending = token :: rest) : expectToken s = (.ok token, leaving s rest) := by
  unfold expectToken
  rw [Lexer.nextToken_of_pending h]

theorem body_eq (d : Draft) (s : Lexer) :
    body d s =
      match expectToken s with
      | (.error e, t) => (.error e, t)
      | (.ok token, t) =>
        match token.kind with
        | .typeParam name => body { d with declared := name :: d.declared } t
        | .paramsBegin => body d t
        | .paramsEnd => body d t
        | .paramName name =>
          match expectToken t with
          | (.error e, u) => (.error e, u)
          | (.ok next, u) =>
            match next.kind with
            | .paramType type =>
              match d.addParam name type with
              | .ok d => body d u
              | .error e => (.error e, u)
            | _ => (.error (outOfPlace next .parameterType), u)
        | .resultType type => (d.finish type, t)
        | _ => (.error (outOfPlace token .parameterOrResult), t) := by
  rw [body]
  rcases expectToken s with ⟨e | token, t⟩
  · rfl
  · simp only
    cases token.kind with
    | paramName name =>
        simp only
        rcases expectToken t with ⟨e | ⟨kind, position⟩, u⟩
        · rfl
        · cases kind <;> rfl
    | _ => rfl

theorem exists_pending {s : Lexer} {kind : TokenKind} {kinds : List TokenKind}
    (h : s.pending.map (·.kind) = kind :: kinds) :
    ∃ token rest, expectToken s = (.ok token, leaving s rest) ∧ token.kind = kind ∧
      rest.map (·.kind) = kinds := by
  obtain ⟨token, rest, hpending, hkind, hrest⟩ := List.map_eq_cons_iff.mp h
  exact ⟨token, rest, expectToken_of_pending hpending, hkind, hrest⟩

theorem body_of_vars {d : Draft} {s : Lexer} {vars : List String} {kinds : List TokenKind}
    (h : s.pending.map (·.kind) = vars.map .typeParam ++ kinds) :
    ∃ rest, rest.map (·.kind) = kinds ∧
      body d s = body { d with declared := vars.reverse ++ d.declared } (leaving s rest) := by
  induction vars generalizing d s with
  | nil => exact ⟨s.pending, h, rfl⟩
  | cons v vars ih =>
      obtain ⟨token, rest, hexpect, hkind, hrest⟩ := exists_pending h
      obtain ⟨rest', hrest', hbody⟩ := ih (d := { d with declared := v :: d.declared })
        (s := leaving s rest) hrest
      refine ⟨rest', hrest', ?_⟩
      rw [body_eq, hexpect]
      simp only [hkind]
      rw [hbody, List.reverse_cons, List.append_assoc]
      rfl

/-- What the reader makes of tokens that are all pending: an outcome, behind which nothing is
pending unless it is an error. -/
def Gives (step : Step Declaration) (s : Lexer) (outcome : Except ParseError Declaration) : Prop :=
  ∃ rest, step = (outcome, leaving s rest) ∧ ∀ d, outcome = .ok d → rest = []

theorem body_of_result {d : Draft} {s : Lexer} {result : String}
    (h : s.pending.map (·.kind) = [.resultType result]) :
    Gives (body d s) s (d.finish result) := by
  obtain ⟨token, rest, hexpect, hkind, hrest⟩ := exists_pending h
  refine ⟨rest, ?_, fun _ _ => List.map_eq_nil_iff.mp hrest⟩
  rw [body_eq, hexpect]
  simp only [hkind]

/-- Reading parameters adds them one by one and stops at the first with a faulty type. -/
theorem body_of_params {d : Draft} {s : Lexer} {params : List (String × String)} {result : String}
    (h : s.pending.map (·.kind) =
      params.flatMap Signature.paramKinds ++ [.paramsEnd, .resultType result]) :
    Gives (body d s) s
      (params.foldlM (fun d param => Draft.addParam d param.1 param.2) d >>=
        (·.finish result)) := by
  induction params generalizing d s with
  | nil =>
      obtain ⟨token, rest, hexpect, hkind, hrest⟩ := exists_pending h
      rw [body_eq, hexpect]
      simp only [hkind]
      exact body_of_result (s := leaving s rest) hrest
  | cons param params ih =>
      obtain ⟨token, rest, hexpect, hkind, hrest⟩ := exists_pending h
      obtain ⟨token', rest', hexpect', hkind', hrest'⟩ :=
        exists_pending (s := leaving s rest) hrest
      rw [body_eq, hexpect]
      simp only [hkind]
      rw [hexpect']
      simp only [hkind']
      rw [List.foldlM_cons]
      cases hadd : d.addParam param.1 param.2 with
      | error e => exact ⟨rest', rfl, fun _ h => by cases h⟩
      | ok d' => exact ih (s := leaving s rest') hrest'

theorem body_of_kinds {d : Draft} {s : Lexer} {vars : List String}
    {params : List (String × String)} {result : String}
    (h : s.pending.map (·.kind) = Signature.bodyKinds vars params result) :
    Gives (body d s) s
      (params.foldlM (fun d param => Draft.addParam d param.1 param.2)
        { d with declared := vars.reverse ++ d.declared } >>= (·.finish result)) := by
  rw [Signature.bodyKinds, List.append_assoc] at h
  obtain ⟨rest, hrest, hbody⟩ := body_of_vars (d := d) h
  rw [hbody]
  cases params with
  | nil => exact body_of_result (s := leaving s rest) hrest
  | cons param params =>
      obtain ⟨token, rest', hexpect, hkind, hrest'⟩ := exists_pending (s := leaving s rest) hrest
      rw [body_eq, hexpect]
      simp only [hkind]
      exact body_of_params (s := leaving s rest') (hrest'.trans (List.append_assoc ..))

theorem named_of_kinds {s : Lexer} (sig : Signature)
    (h : s.pending.map (·.kind) =
      .id sig.id :: Signature.bodyKinds sig.vars sig.params sig.result) :
    Gives (named sig.name s) s (sig.declaration s.category) := by
  obtain ⟨token, rest, hexpect, hkind, hrest⟩ := exists_pending h
  rw [named, hexpect]
  simp only [hkind]
  unfold Signature.declaration
  cases QualifiedName.parse? sig.name.toList with
  | none => exact ⟨rest, rfl, fun _ h => by cases h⟩
  | some name =>
      have hbody := body_of_kinds (d := ⟨s.category, sig.name, name, sig.id, [], []⟩)
        (s := leaving s rest) hrest
      rw [List.append_nil] at hbody
      exact hbody

/-! ## The next declaration -/

def Founded (s : Lexer) (e : ParseError) : Prop :=
  (∃ fault, e = .lex fault ∧ s.run.error = some fault) ∨
    ∃ declaration parameter fault, e = .type declaration parameter fault

theorem finish_eq_error {d : Draft} {result : String} {e : ParseError}
    (h : d.finish result = .error e) : ∃ fault, e = .type d.spelling none fault := by
  unfold Draft.finish at h
  split at h
  · cases h
  · rename_i fault _
    cases h
    exact ⟨fault, rfl⟩

theorem foldlM_addParam_eq_error {d : Draft} {params : List (String × String)} {result : String}
    {e : ParseError}
    (h : (params.foldlM (fun d param => Draft.addParam d param.1 param.2) d >>=
      (·.finish result)) = .error e) : ∃ parameter fault, e = .type d.spelling parameter fault := by
  induction params generalizing d with
  | nil =>
      obtain ⟨fault, hfault⟩ := finish_eq_error (d := d) h
      exact ⟨none, fault, hfault⟩
  | cons param params ih =>
      rw [List.foldlM_cons] at h
      unfold Draft.addParam at h
      split at h
      · exact ih (d := { d with params := _ :: d.params }) h
      · rename_i fault _
        cases h
        exact ⟨some param.1, fault, rfl⟩

/-- A signature gives no declaration only if its name or one of its types is faulty. -/
theorem declaration_eq_error {sig : Signature} {category : Category} {e : ParseError}
    (h : sig.declaration category = .error e) :
    ∃ parameter fault, e = .type sig.name parameter fault := by
  unfold Signature.declaration at h
  split at h
  · cases h
    exact ⟨none, _, rfl⟩
  · exact foldlM_addParam_eq_error h

theorem run_error_leaving {s : Lexer} {front rest : List Token} (h : s.pending = front ++ rest) :
    s.run.error = (leaving s rest).run.error := by
  induction front generalizing s with
  | nil =>
      rw [List.nil_append] at h
      rw [← h]
  | cons token front ih =>
      rw [Lexer.run_of_some (Lexer.nextToken_of_pending h)]
      exact ih (s := leaving s (front ++ rest)) rfl

theorem exists_group {s t : Lexer} {token : Token} (hpending : s.pending = [])
    (h : s.nextToken = .ok (some token) t) :
    (∃ category, token.kind = .sectionMark category ∧ t.pending = []) ∨
      ∃ sig : Signature, token.kind = .name sig.name ∧
        t.pending.map (·.kind) =
          .id sig.id :: Signature.bodyKinds sig.vars sig.params sig.result := by
  rcases Lexer.nextToken_eq_some h with ⟨hcons, -⟩ | ⟨-, group, hgroup⟩
  · rw [hpending] at hcons
    cases hcons
  · rw [List.map_cons] at hgroup
    cases group with
    | sectionMark category =>
        obtain ⟨hkind, hrest⟩ := List.cons.inj hgroup
        exact .inl ⟨category, hkind, List.map_eq_nil_iff.mp hrest⟩
    | declaration sig =>
        obtain ⟨hkind, hrest⟩ := List.cons.inj hgroup
        exact .inr ⟨sig, hkind, hrest⟩

/-- What the reader gives at the start of a group: nothing at the end of the tokens, a declaration
behind which the tokens go on with the next group, or an error with a reason. -/
theorem declaration?_of_group {s : Lexer} (hpending : s.pending = []) :
    match declaration? s with
    | (.ok none, _) => True
    | (.ok (some _), t) => t.pending = [] ∧ s.run.error = t.run.error
    | (.error e, _) => Founded s e := by
  fun_induction declaration? s with
  | case1 s e t hnext =>
      refine .inl ⟨e, rfl, ?_⟩
      rw [Lexer.run_of_error hnext]
  | case2 => trivial
  | case3 s token t hnext c hkind ih =>
      have hrun : s.run.error = t.run.error := by
        rw [Lexer.run_of_some hnext]
        rfl
      rcases exists_group hpending hnext with ⟨_, -, hbehind⟩ | ⟨sig, hname, -⟩
      · have hthere := ih hbehind
        unfold Founded at hthere ⊢
        rw [hrun]
        exact hthere
      · rw [hkind] at hname
        cases hname
  | case4 s token t hnext spelling hkind d u hnamed =>
      rcases exists_group hpending hnext with ⟨_, hmark, -⟩ | ⟨sig, hname, hkinds⟩
      · rw [hkind] at hmark
        cases hmark
      · rw [hkind] at hname
        cases hname
        obtain ⟨rest, hstep, hrest⟩ := named_of_kinds sig hkinds
        rw [hnamed] at hstep
        obtain ⟨hok, hbehind⟩ := Prod.mk.inj hstep
        obtain rfl := hrest d hok.symm
        rw [hbehind, Lexer.run_of_some hnext]
        exact ⟨rfl, run_error_leaving (List.append_nil _).symm⟩
  | case5 s token t hnext spelling hkind e u hnamed =>
      rcases exists_group hpending hnext with ⟨_, hmark, -⟩ | ⟨sig, hname, hkinds⟩
      · rw [hkind] at hmark
        cases hmark
      · rw [hkind] at hname
        cases hname
        obtain ⟨rest, hstep, -⟩ := named_of_kinds sig hkinds
        rw [hnamed] at hstep
        obtain ⟨parameter, fault, hfault⟩ := declaration_eq_error (Prod.mk.inj hstep).1.symm
        exact .inr ⟨_, parameter, fault, hfault⟩
  | case6 s token t hnext hmark hname =>
      rcases exists_group hpending hnext with ⟨category, hkind, -⟩ | ⟨sig, hkind, -⟩
      · exact (hmark category hkind).elim
      · exact (hname sig.name hkind).elim

/-! ## All declarations -/

theorem next_of_finished {r : DeclarationReader} (h : r.finished = true) : r.next = (none, r) := by
  unfold next
  rw [if_pos h]

/-- One item of the reader at the start of a group. Behind the last one or an error it has
finished. -/
theorem next_of_group {r : DeclarationReader} (hpending : r.lexer.pending = []) :
    match r.next with
    | (none, t) => t.finished = true
    | (some (.error e), t) => t.finished = true ∧ Founded r.lexer e
    | (some (.ok _), t) => t.lexer.pending = [] ∧ r.lexer.run.error = t.lexer.run.error := by
  have hgroup := declaration?_of_group hpending
  cases hfinished : r.finished with
  | true =>
      rw [next_of_finished hfinished]
      exact hfinished
  | false =>
      unfold next
      rw [hfinished]
      simp only [Bool.false_eq_true, if_false]
      generalize declaration? r.lexer = step at hgroup ⊢
      rcases step with ⟨e | _ | d, t⟩
      · exact ⟨rfl, hgroup⟩
      · rfl
      · exact hgroup

/-- The items that the reader still gives: declarations, and at most one error behind them. -/
theorem itemsFrom_of_group (done : List (Except ParseError Declaration)) {r : DeclarationReader}
    (hpending : r.lexer.pending = []) :
    ∃ (ds : List Declaration) (error : Option ParseError),
      (itemsFrom done r).1 = done.reverse ++ ds.map .ok ++ (error.map .error).toList ∧
        (∀ e, error = some e → Founded r.lexer e) ∧
        (itemsFrom done r).2.next = (none, (itemsFrom done r).2) := by
  -- Behind each declaration nothing is pending, so that the next item starts with a group again.
  have hgroup := next_of_group hpending
  fun_induction itemsFrom done r with
  | case1 done r t hnext =>
      rw [hnext] at hgroup
      exact ⟨[], none, by simp, by simp, next_of_finished hgroup⟩
  | case2 done r e t hnext =>
      rw [hnext] at hgroup
      refine ⟨[], some e, by simp, ?_, next_of_finished hgroup.1⟩
      intro e' he'
      cases he'
      exact hgroup.2
  | case3 done r d t hnext ih =>
      rw [hnext] at hgroup
      obtain ⟨hbehind, hrun⟩ := hgroup
      obtain ⟨ds, error, hitems, hfounded, hend⟩ := ih hbehind (next_of_group hbehind)
      refine ⟨d :: ds, error, ?_, ?_, hend⟩
      · rw [hitems]
        simp
      · intro e he
        have := hfounded e he
        unfold Founded at this ⊢
        rw [hrun]
        exact this

end DeclarationReader

/-- The tokens of a source, up to its end or its first error, are a sequence of complete groups.
Behind that the lexer gives nothing more and shows the same for good. The reader of declarations
gives declarations and at most one error, behind which it gives nothing; the error is the lexer's,
or a name or a type is at fault, but no token is ever out of place or missing. -/
theorem grouped_ofSource (source : List Delivery) (capacity : Nat) :
    let s := Lexer.ofSource source capacity
    let read := (DeclarationReader.mk s false).items
    (∃ groups : List TokenGroup, s.run.tokens.map (·.kind) = groups.flatMap TokenGroup.kinds) ∧
      (∃ before : List Lexer.Observation,
        before.map (·.outcome) = s.run.tokens.map (fun token => .ok (some token)) ∧
          ∀ calls, s.observe (s.run.tokens.length + 1 + calls) =
            before ++ s.run.last.shows s.run.ending ::
              List.replicate calls (s.run.last.shows (.ok none))) ∧
      (∃ (ds : List Declaration) (error : Option ParseError),
        read.1 = ds.map .ok ++ (error.map .error).toList ∧
          ∀ e, error = some e →
            (∃ fault, e = .lex fault ∧ s.run.error = some fault) ∨
              ∃ declaration parameter fault, e = .type declaration parameter fault) ∧
      read.2.next = (none, read.2) := by
  intro s read
  obtain ⟨groups, hgroups⟩ := s.run_grouped
  obtain ⟨ds, error, hitems, hfounded, hend⟩ :=
    DeclarationReader.itemsFrom_of_group [] (r := ⟨s, false⟩) rfl
  exact ⟨⟨groups, hgroups⟩, s.observe_run, ⟨ds, error, hitems, hfounded⟩, hend⟩

end TypeLang
