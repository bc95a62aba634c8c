import TypeLang.Proofs.Outcome
import TypeLang.Proofs.Token.Delivery

/-!
# Tokens come in groups

The tokens of a source are a sequence of complete groups: a section mark, or all the tokens of one
declaration in their order. `Statement.exists_signature` says so of the words of one declaration,
`Lexer.run_grouped` of a whole source up to its end or its first error. Behind that the lexer stands
still (`Lexer.nextToken_run`).
-/

namespace TypeLang

/-! ## Groups -/

/-- What the tokens of one declaration say: texts, of which nothing but the identifier has been read
yet. -/
structure Signature where
  name : String
  id : UInt32
  /-- The variables that blocks declare. -/
  vars : List String
  /-- Names and types. -/
  params : List (String × String)
  result : String

namespace Signature

def paramKinds (param : String × String) : List TokenKind :=
  [.paramName param.1, .paramType param.2]

def paramsKinds : List (String × String) → List TokenKind
  | [] => []
  | param :: params => .paramsBegin :: (param :: params).flatMap paramKinds ++ [.paramsEnd]

def bodyKinds (vars : List String) (params : List (String × String)) (result : String) :
    List TokenKind :=
  vars.map .typeParam ++ paramsKinds params ++ [.resultType result]

def kinds (sig : Signature) : List TokenKind :=
  .name sig.name :: .id sig.id :: bodyKinds sig.vars sig.params sig.result

end Signature

inductive TokenGroup where
  | sectionMark (category : Category)
  | declaration (sig : Signature)

def TokenGroup.kinds : TokenGroup → List TokenKind
  | sectionMark category => [.sectionMark category]
  | declaration sig => sig.kinds

/-! ## The words of one declaration -/

theorem Word.parameterTokens_eq_ok {w : Word} {tokens : List Token}
    (h : w.parameterTokens = .ok tokens) :
    ∃ param, tokens.map (·.kind) = Signature.paramKinds param := by
  unfold parameterTokens at h
  split at h
  · split at h
    · cases h
    · rename_i name type _ _
      cases h
      exact ⟨(String.ofList name, String.ofList type), rfl⟩
  · cases h

namespace Statement

open Signature

theorem resultTokens_eq_ok {stop : Position} {words : List Word} {tokens : List Token}
    (h : resultTokens stop words = .ok tokens) :
    ∃ result, tokens.map (·.kind) = [.resultType result] := by
  unfold resultTokens at h
  split at h
  · cases h
  · split at h
    · cases h
    · cases h
      exact ⟨_, rfl⟩

theorem laterTokens_eq_ok {stop : Position} {words : List Word} {tokens : List Token}
    (h : laterTokens stop words = .ok tokens) :
    ∃ (params : List (String × String)) (result : String), tokens.map (·.kind) =
      params.flatMap paramKinds ++ [.paramsEnd, .resultType result] := by
  induction words generalizing tokens with
  | nil => cases h
  | cons w rest ih =>
      unfold laterTokens at h
      split at h
      · cases hresult : resultTokens stop rest with
        | error e =>
            rw [hresult] at h
            cases h
        | ok later =>
            rw [hresult] at h
            cases h
            obtain ⟨result, hkinds⟩ := resultTokens_eq_ok hresult
            exact ⟨[], result, by simp [hkinds]⟩
      · obtain ⟨parameter, hparameter, h⟩ := bind_eq_ok.mp h
        obtain ⟨later, hlater, h⟩ := bind_eq_ok.mp h
        cases h
        obtain ⟨param, hparam⟩ := Word.parameterTokens_eq_ok hparameter
        obtain ⟨params, result, hkinds⟩ := ih hlater
        exact ⟨param :: params, result, by simp [hparam, hkinds]⟩

theorem bodyTokens_eq_ok {stop : Position} {words : List Word} {tokens : List Token}
    (h : bodyTokens stop words = .ok tokens) :
    ∃ vars params result, tokens.map (·.kind) = bodyKinds vars params result := by
  fun_induction bodyTokens stop words generalizing tokens with
  | case1 => cases h
  | case2 w rest hequals =>
      obtain ⟨result, hkinds⟩ := resultTokens_eq_ok h
      exact ⟨[], [], result, hkinds⟩
  | case3 => cases h
  | case4 w rest _ _ equals later hskip =>
      obtain ⟨result, hkinds⟩ := resultTokens_eq_ok h
      exact ⟨[], [], result, hkinds⟩
  | case5 w rest _ _ _ ih => exact ih h
  | case6 w rest _ _ _ _ variableName _ ih =>
      obtain ⟨later, hlater, h⟩ := bind_eq_ok.mp h
      cases h
      obtain ⟨vars, params, result, hkinds⟩ := ih hlater
      exact ⟨String.ofList variableName :: vars, params, result, by simp [bodyKinds, hkinds]⟩
  | case7 => cases h
  | case8 w rest =>
      obtain ⟨parameter, hparameter, h⟩ := bind_eq_ok.mp h
      obtain ⟨later, hlater, h⟩ := bind_eq_ok.mp h
      cases h
      obtain ⟨param, hparam⟩ := Word.parameterTokens_eq_ok hparameter
      obtain ⟨params, result, hkinds⟩ := laterTokens_eq_ok hlater
      exact ⟨[], param :: params, result, by simp [bodyKinds, paramsKinds, hparam, hkinds]⟩

/-- The tokens of a declaration are complete. One that describes a built-in type has none. -/
theorem exists_signature {s : Statement} {tokens : List Token} (h : s.tokens = .ok tokens) :
    tokens = [] ∨ ∃ sig : Signature, tokens.map (·.kind) = sig.kinds := by
  unfold Statement.tokens at h
  split at h
  · cases h
    exact .inl rfl
  · rename_i head rest
    simp only at h
    split at h
    · split at h
      · cases h
      · split at h
        · obtain ⟨body, hbody, h⟩ := bind_eq_ok.mp h
          cases h
          obtain ⟨vars, params, result, hkinds⟩ := bodyTokens_eq_ok hbody
          exact .inr ⟨⟨_, _, vars, params, result⟩, congrArg (_ :: _ :: ·) hkinds⟩
        · cases h
    · split at h
      · obtain ⟨body, hbody, h⟩ := bind_eq_ok.mp h
        cases h
        obtain ⟨vars, params, result, hkinds⟩ := bodyTokens_eq_ok hbody
        exact .inr ⟨⟨_, _, vars, params, result⟩, congrArg (_ :: _ :: ·) hkinds⟩
      · cases h
        exact .inl rfl

end Statement

/-! ## One call -/

namespace Lexer

open Scan

theorem sectionMark_eq_ok {s t : Lexer} {token : Token} (h : sectionMark s = .ok token t) :
    token.kind = .sectionMark t.category := by
  simp only [sectionMark, Scan.bind_eq_ok] at h
  obtain ⟨_, _, _, _, _, _, _, _, _, _, _, _, name, _, _, _, _, _, _, _, _, _, u, _, h⟩ := h
  cases htext : Text.ofUtf8? name with
  | none =>
      rw [htext] at h
      cases h
  | some text =>
      cases hcategory : Category.ofSectionName? text with
      | none =>
          simp only [htext, hcategory] at h
          cases h
      | some category =>
          simp only [htext, hcategory] at h
          cases h
          rfl

theorem exists_statement {s t : Lexer} {tokens : List Token} (h : declaration s = .ok tokens t) :
    ∃ words u, statement s = .ok words u ∧ words.tokens = .ok tokens := by
  obtain ⟨words, u, hwords, h⟩ := Scan.bind_eq_ok.mp h
  cases htokens : words.tokens with
  | error e =>
      simp only [htokens] at h
      cases h
  | ok tokens =>
      simp only [htokens] at h
      cases h
      exact ⟨words, t, hwords, htokens⟩

/-- A group that was read starts with the token given and goes on with the pending ones. -/
theorem nextGroup_eq_some {s t : Lexer} {token : Token} (hpending : s.pending = [])
    (h : nextGroup s = .ok (some token) t) :
    ∃ group : TokenGroup, (token :: t.pending).map (·.kind) = group.kinds := by
  fun_induction nextGroup s with
  | case1 => cases h
  | case2 => cases h
  | case3 => cases h
  | case4 s _ u htrivia v hpeek =>
      obtain ⟨mark, hmark, hsome⟩ := Scan.map_eq_ok.mp h
      cases hsome
      have hbehind : t.pending = [] := by
        rw [(sectionMark_seesBytes.frame_ok hmark).1, (skipTrivia_seesBytes.frame_ok htrivia).1,
          hpending]
      refine ⟨.sectionMark t.category, ?_⟩
      rw [hbehind, List.map_singleton, sectionMark_eq_ok hmark]
      rfl
  | case5 => cases h
  | case6 s _ u htrivia b v hpeek hmark w hdeclaration ih =>
      refine ih ?_ h
      rw [(declaration_seesBytes.frame_ok hdeclaration).1,
        (skipTrivia_seesBytes.frame_ok htrivia).1, hpending]
  | case7 s _ u htrivia b v hpeek hmark first rest w hdeclaration =>
      cases h
      obtain ⟨words, _, -, htokens⟩ := exists_statement hdeclaration
      rcases words.exists_signature htokens with hnone | ⟨sig, hkinds⟩
      · cases hnone
      · exact ⟨.declaration sig, hkinds⟩

theorem nextGroup_eq_none {s t : Lexer} (h : nextGroup s = .ok none t) :
    nextGroup t = .ok none t ∧ t.pending = s.pending ∧ t.failed = s.failed := by
  fun_induction nextGroup s with
  | case1 => cases h
  | case2 => cases h
  | case3 s _ u htrivia v hpeek =>
      cases h
      have hnext : u.feed.next = .ok none := by
        unfold peek at hpeek
        split at hpeek <;> cases hpeek
        assumption
      obtain rfl := peek_eq_ok hpeek
      refine ⟨?_, skipTrivia_seesBytes.frame_ok htrivia⟩
      rw [nextGroup_eq, skipTrivia_eq, hnext]
      simp only [hpeek]
  | case4 s _ u htrivia v hpeek =>
      obtain ⟨mark, _, hsome⟩ := Scan.map_eq_ok.mp h
      cases hsome
  | case5 => cases h
  | case6 s _ u htrivia b v hpeek hmark w hdeclaration ih =>
      obtain ⟨hstill, hpending, hfailed⟩ := ih h
      have hframe := declaration_seesBytes.frame_ok hdeclaration
      have hframe' := skipTrivia_seesBytes.frame_ok htrivia
      exact ⟨hstill, by rw [hpending, hframe.1, hframe'.1], by rw [hfailed, hframe.2, hframe'.2]⟩
  | case7 => cases h

theorem nextGroup_eq_error {s t : Lexer} {e : LexError} (h : nextGroup s = .error e t) :
    t.pending = s.pending := by
  fun_induction nextGroup s with
  | case1 s e' u htrivia =>
      cases h
      exact (skipTrivia_seesBytes.frame_error htrivia).1
  | case2 s _ u htrivia e' v hpeek =>
      cases h
      rw [(peek_seesBytes.frame_error hpeek).1, (skipTrivia_seesBytes.frame_ok htrivia).1]
  | case3 => cases h
  | case4 s _ u htrivia v hpeek =>
      rw [((sectionMark_seesBytes.map some).frame_error h).1,
        (skipTrivia_seesBytes.frame_ok htrivia).1]
  | case5 s _ u htrivia b v hpeek hmark e' w hdeclaration =>
      cases h
      rw [(declaration_seesBytes.frame_error hdeclaration).1,
        (skipTrivia_seesBytes.frame_ok htrivia).1]
  | case6 s _ u htrivia b v hpeek hmark w hdeclaration ih =>
      rw [ih h, (declaration_seesBytes.frame_ok hdeclaration).1,
        (skipTrivia_seesBytes.frame_ok htrivia).1]
  | case7 => cases h

theorem nextToken_of_pending {s : Lexer} {token : Token} {rest : List Token}
    (h : s.pending = token :: rest) :
    nextToken s = .ok (some token) { s with pending := rest } := by
  unfold nextToken
  rw [h]

theorem nextToken_of_failed {s : Lexer} (hpending : s.pending = []) (hfailed : s.failed = true) :
    nextToken s = .ok none s := by
  unfold nextToken
  rw [hpending]
  simp only [hfailed, if_true]

theorem nextToken_of_nextGroup {s : Lexer} (hpending : s.pending = [])
    (hfailed : s.failed = false) :
    nextToken s =
      match nextGroup s with
      | .error e t => .error e { t with failed := true }
      | result => result := by
  unfold nextToken
  rw [hpending]
  cases nextGroup s <;> simp only [hfailed, Bool.false_eq_true, if_false]

/-- A token is a pending one, or it is the first of a group whose others are pending then. -/
theorem nextToken_eq_some {s t : Lexer} {token : Token} (h : nextToken s = .ok (some token) t) :
    (s.pending = token :: t.pending ∧ t = { s with pending := t.pending }) ∨
      s.pending = [] ∧ ∃ group : TokenGroup, (token :: t.pending).map (·.kind) = group.kinds := by
  cases hpending : s.pending with
  | cons first rest =>
      rw [nextToken_of_pending hpending] at h
      cases h
      exact .inl ⟨rfl, rfl⟩
  | nil =>
      cases hfailed : s.failed with
      | true =>
          rw [nextToken_of_failed hpending hfailed] at h
          cases h
      | false =>
          rw [nextToken_of_nextGroup hpending hfailed] at h
          split at h
          · cases h
          · exact .inr ⟨rfl, nextGroup_eq_some hpending h⟩

theorem nextToken_eq_none {s t : Lexer} (h : nextToken s = .ok none t) :
    s.pending = [] ∧ nextToken t = .ok none t := by
  cases hpending : s.pending with
  | cons first rest =>
      rw [nextToken_of_pending hpending] at h
      cases h
  | nil =>
      refine ⟨rfl, ?_⟩
      cases hfailed : s.failed with
      | true =>
          rw [nextToken_of_failed hpending hfailed] at h
          cases h
          exact nextToken_of_failed hpending hfailed
      | false =>
          rw [nextToken_of_nextGroup hpending hfailed] at h
          split at h
          · cases h
          · obtain ⟨hstill, hpending', hfailed'⟩ := nextGroup_eq_none h
            rw [nextToken_of_nextGroup (hpending'.trans hpending) (hfailed'.trans hfailed), hstill]

theorem nextToken_eq_error {s t : Lexer} {e : LexError} (h : nextToken s = .error e t) :
    s.pending = [] ∧ nextToken t = .ok none t := by
  cases hpending : s.pending with
  | cons first rest =>
      rw [nextToken_of_pending hpending] at h
      cases h
  | nil =>
      refine ⟨rfl, ?_⟩
      cases hfailed : s.failed with
      | true =>
          rw [nextToken_of_failed hpending hfailed] at h
          cases h
      | false =>
          rw [nextToken_of_nextGroup hpending hfailed] at h
          split at h
          · rename_i hgroup
            cases h
            exact nextToken_of_failed ((nextGroup_eq_error hgroup).trans hpending) rfl
          · rename_i hno
            exact (hno _ _ h).elim

/-! ## A whole source -/

/-- What a lexer gives up to the end of its input or its first error. -/
structure Run where
  tokens : List Token
  error : Option LexError
  /-- The lexer behind the call that gave no token. -/
  last : Lexer

def Run.ending (r : Run) : Except LexError (Option Token) :=
  match r.error with
  | none => .ok none
  | some e => .error e

def Run.cons (token : Token) (r : Run) : Run :=
  { r with tokens := token :: r.tokens }

def run (s : Lexer) : Run :=
  match _h : nextToken s with
  | .ok (some token) t => (run t).cons token
  | .ok none t => ⟨[], none, t⟩
  | .error e t => ⟨[], some e, t⟩
termination_by (s.remaining.length, s.pending.length)
decreasing_by
  all_goals
    simp only [Prod.lex_def]
    exact nextToken_progress _h

theorem run_of_some {s t : Lexer} {token : Token} (h : nextToken s = .ok (some token) t) :
    s.run = t.run.cons token := by
  rw [run]
  split <;> rename_i hnext <;> rw [h] at hnext <;> cases hnext
  rfl

theorem run_of_none {s t : Lexer} (h : nextToken s = .ok none t) : s.run = ⟨[], none, t⟩ := by
  rw [run]
  split <;> rename_i hnext <;> rw [h] at hnext <;> cases hnext
  rfl

theorem run_of_error {s t : Lexer} {e : LexError} (h : nextToken s = .error e t) :
    s.run = ⟨[], some e, t⟩ := by
  rw [run]
  split <;> rename_i hnext <;> rw [h] at hnext <;> cases hnext
  rfl

theorem run_of_pending {s : Lexer} {pending : List Token} (h : s.pending = pending) :
    s.run.tokens = pending ++ (run { s with pending := [] }).tokens ∧
      s.run.error = (run { s with pending := [] }).error := by
  induction pending generalizing s with
  | nil =>
      obtain ⟨feed, position, category, layer, pending, failed⟩ := s
      cases h
      exact ⟨rfl, rfl⟩
  | cons token pending ih =>
      obtain ⟨htokens, herror⟩ := @ih { s with pending } rfl
      rw [run_of_some (nextToken_of_pending h)]
      exact ⟨congrArg (token :: ·) htokens, herror⟩

/-- The tokens up to the end or the first error: first the pending ones, then complete groups. -/
theorem run_grouped (s : Lexer) : ∃ groups : List TokenGroup,
    s.run.tokens.map (·.kind) = s.pending.map (·.kind) ++ groups.flatMap TokenGroup.kinds := by
  fun_induction run s with
  | case1 s token t h ih =>
      obtain ⟨groups, hgroups⟩ := ih
      rcases nextToken_eq_some h with ⟨hpending, -⟩ | ⟨hpending, group, hgroup⟩
      · refine ⟨groups, ?_⟩
        rw [Run.cons, hpending, List.map_cons, hgroups, List.map_cons, List.cons_append]
      · refine ⟨group :: groups, ?_⟩
        rw [Run.cons, hpending, List.map_cons, hgroups, List.flatMap_cons, ← hgroup]
        rfl
  | case2 s t h => exact ⟨[], by rw [(nextToken_eq_none h).1]; rfl⟩
  | case3 s e t h => exact ⟨[], by rw [(nextToken_eq_error h).1]; rfl⟩

theorem nextToken_run (s : Lexer) : s.run.last.nextToken = .ok none s.run.last := by
  fun_induction run s with
  | case1 s token t h ih => exact ih
  | case2 s t h => exact (nextToken_eq_none h).2
  | case3 s e t h => exact (nextToken_eq_error h).2

theorem observe_of_still {s : Lexer} (h : s.nextToken = .ok none s) (calls : Nat) :
    s.observe calls = List.replicate calls (s.shows (.ok none)) := by
  induction calls with
  | zero => rfl
  | succ calls ih =>
      rw [observe, h, List.replicate_succ, ← ih]

/-- All that ever shows: the tokens, then the end or the error, then nothing new any more. -/
theorem observe_run (s : Lexer) : ∃ before : List Observation,
    before.map (·.outcome) = s.run.tokens.map (fun token => .ok (some token)) ∧
      ∀ calls, s.observe (s.run.tokens.length + 1 + calls) =
        before ++ s.run.last.shows s.run.ending ::
          List.replicate calls (s.run.last.shows (.ok none)) := by
  fun_induction run s with
  | case1 s token t h ih =>
      obtain ⟨before, houtcomes, hobserve⟩ := ih
      refine ⟨t.shows (.ok (some token)) :: before, ?_, ?_⟩
      · rw [List.map_cons, houtcomes]
        rfl
      · intro calls
        rw [Run.cons, List.length_cons, Nat.add_right_comm _ 1 1, Nat.add_right_comm, observe, h]
        simp only
        rw [hobserve]
        rfl
  | case2 s t h =>
      refine ⟨[], rfl, fun calls => ?_⟩
      rw [List.length_nil, Nat.zero_add, Nat.add_comm, observe, h]
      simp only
      rw [observe_of_still (nextToken_eq_none h).2]
      rfl
  | case3 s e t h =>
      refine ⟨[], rfl, fun calls => ?_⟩
      rw [List.length_nil, Nat.zero_add, Nat.add_comm, observe, h]
      simp only
      rw [observe_of_still (nextToken_eq_error h).2]
      rfl

end Lexer

end TypeLang
