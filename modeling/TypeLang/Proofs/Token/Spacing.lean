import TypeLang.Proofs.Token.Kinds
import TypeLang.Proofs.Token.Line

/-!
# Spacing does not matter

A text is written down from items, which are section marks and declarations. Blanks between words,
and blanks, line breaks and comments between items, may be chosen freely. The lexer gives the same
kinds of tokens for every such text, and the same fault behind the same tokens if there is one
(`Lexer.run_of_same_items`): what it gives is what the items say, one after the other
(`Lexer.outcome_facing`).
-/

namespace TypeLang

namespace Lexer

open Scan

/-! ## Items -/

inductive Item where
  /-- A section mark, also one of a section that there is not. -/
  | mark (name : String)
  /-- The words of a declaration, without the semicolon that ends them. -/
  | declaration (words : List String)

inductive Trivia : List UInt8 → Prop
  | nil : Trivia []
  | blank {b : UInt8} {bytes : List UInt8} (blank : (isGap b || isLineBreak b) = true)
      (later : Trivia bytes) : Trivia (b :: bytes)
  | comment {text bytes : List UInt8} (line : 0x0a ∉ text) (later : Trivia bytes) :
      Trivia (0x2f :: 0x2f :: (text ++ 0x0a :: bytes))

/-- The bytes write the item, from its first byte that is no blank. The first word of a declaration
must not look like a section mark or a comment. -/
inductive Item.Writes : Item → List UInt8 → Prop
  | mark {name : String} (legible : ∀ c ∈ name.toList, c ∉ ['-', '\n', '\r']) :
      Writes (.mark name) (0x2d :: 0x2d :: 0x2d :: (Text.toUtf8 name ++ [0x2d, 0x2d, 0x2d]))
  | declaration {words : List String} {bytes : List UInt8} (writes : WritesWords false words bytes)
      (first : ∀ word c, words.head? = some word → word.toList.head? = some c → c ≠ '-' ∧ c ≠ '/')
      (start : ∀ b, bytes.head? = some b → isGap b = false) :
      Writes (.declaration words) bytes

inductive WritesItems : List Item → List UInt8 → Prop
  | nil {trivia : List UInt8} (between : Trivia trivia) : WritesItems [] trivia
  | cons {item : Item} {items : List Item} {trivia bytes more : List UInt8}
      (between : Trivia trivia) (writes : item.Writes bytes) (later : WritesItems items more) :
      WritesItems (item :: items) (trivia ++ (bytes ++ more))

/-! ## What items say -/

def Item.kinds : Item → Except LexFault (List TokenKind)
  | mark name =>
    match Category.ofSectionName? name with
    | none => .error (.sectionName name)
    | some category => .ok [.sectionMark category]
  | declaration words => kindsOf (Statement.tokens ⟨words.map (⟨·, .start⟩), .start⟩)

structure Outcome where
  kinds : List TokenKind
  fault : Option LexFault

def Outcome.behind (kinds : List TokenKind) (o : Outcome) : Outcome :=
  ⟨kinds ++ o.kinds, o.fault⟩

/-- What an item says, and what stands behind it unless there is a fault in the item. -/
def Outcome.next (kinds : Except LexFault (List TokenKind)) (o : Outcome) : Outcome :=
  match kinds with
  | .ok kinds => o.behind kinds
  | .error fault => ⟨[], some fault⟩

def Item.outcome : List Item → Outcome
  | [] => ⟨[], none⟩
  | item :: items => (outcome items).next item.kinds

def outcome (s : Lexer) : Outcome :=
  ⟨s.run.tokens.map (·.kind), s.run.error.map (·.fault)⟩

/-! ## Between items -/

theorem comment_facing {text : List UInt8} (h : 0x0a ∉ text) (s : Lexer) (rest : List UInt8)
    (p : Position) : ∃ layer,
      comment (s.facing (0x2f :: (text ++ 0x0a :: rest)) p) =
        .ok () ({ s with layer }.facing (0x0a :: rest) ((p.after 0x2f).afterAll text)) := by
  have hpeek : peek (s.facing (0x2f :: (text ++ 0x0a :: rest)) p) =
      .ok (some 0x2f) (s.facing (0x2f :: (text ++ 0x0a :: rest)) p) := by
    rw [peek, next_facing_cons]
  have hadvance : advance (s.facing (0x2f :: (text ++ 0x0a :: rest)) p) =
      .ok () (s.facing (text ++ 0x0a :: rest) (p.after 0x2f)) := by
    rw [advance, next_facing_cons]
    rfl
  have htext : ∀ b ∈ text, (b != 0x0a) = true := by
    intro b hb
    rw [bne_iff_ne]
    rintro rfl
    exact h hb
  have hread := takeWhile_facing (0x0a :: rest) htext (by
    intro b hb
    cases hb
    rfl) s (p.after 0x2f)
  refine ⟨(announcedLayer? text).or s.layer, ?_⟩
  rw [comment, Scan.bind_of_eq_ok hpeek]
  simp only [if_true]
  rw [Scan.bind_of_eq_ok hadvance, Scan.bind_of_eq_ok hread]
  rfl

/-- What stands between items is passed over; a comment may announce a layer. -/
theorem skipTrivia_trivia {trivia : List UInt8} (h : Trivia trivia) (s : Lexer)
    (rest : List UInt8) (p : Position) : ∃ layer,
      skipTrivia (s.facing (trivia ++ rest) p) =
        skipTrivia ({ s with layer }.facing rest (p.afterAll trivia)) := by
  induction h generalizing s p with
  | nil => exact ⟨s.layer, rfl⟩
  | blank hb _ ih =>
      obtain ⟨layer, hrest⟩ := ih s (p.after _)
      refine ⟨layer, ?_⟩
      rw [List.cons_append, skipTrivia_facing_blank hb, hrest]
      rfl
  | @comment text bytes line _ ih =>
      obtain ⟨layer, hcomment⟩ := comment_facing line s (bytes ++ rest) (p.after 0x2f)
      let q := ((p.after 0x2f).after 0x2f).afterAll text
      obtain ⟨layer', hrest⟩ := ih { s with layer } (q.after 0x0a)
      refine ⟨layer', ?_⟩
      have hbytes : 0x2f :: 0x2f :: (text ++ 0x0a :: bytes) ++ rest =
          0x2f :: 0x2f :: (text ++ 0x0a :: (bytes ++ rest)) := by
        simp
      have hstep : (s.facing (0x2f :: 0x2f :: (text ++ 0x0a :: (bytes ++ rest))) p).step 0x2f
          ⟨0x2f :: (text ++ 0x0a :: (bytes ++ rest)), [], 1⟩ =
          s.facing (0x2f :: (text ++ 0x0a :: (bytes ++ rest))) (p.after 0x2f) := rfl
      have hplace : p.afterAll (0x2f :: 0x2f :: (text ++ 0x0a :: bytes)) =
          (q.after 0x0a).afterAll bytes := by
        simp [q, Position.afterAll]
      rw [hbytes, hplace, skipTrivia_eq, next_facing_cons]
      simp only [show (isGap 0x2f || isLineBreak 0x2f) = false by decide, Bool.false_eq_true,
        if_false, if_true, hstep, hcomment]
      rw [skipTrivia_facing_blank (by decide), hrest]

/-! ## One item -/

variable {s : Lexer}

theorem nextGroup_trivia {trivia : List UInt8} (h : Trivia trivia) (s : Lexer)
    (rest : List UInt8) (p : Position) : ∃ layer,
      nextGroup (s.facing (trivia ++ rest) p) =
        nextGroup ({ s with layer }.facing rest (p.afterAll trivia)) := by
  obtain ⟨layer, hskip⟩ := skipTrivia_trivia h s rest p
  exact ⟨layer, by rw [nextGroup_eq, nextGroup_eq, hskip]⟩

theorem outcome_eq (hpending : s.pending = []) (hfailed : s.failed = false) :
    s.outcome =
      match nextGroup s with
      | .error e _ => ⟨[], some e.fault⟩
      | .ok none _ => ⟨[], none⟩
      | .ok (some token) t =>
        (outcome { t with pending := [] }).behind (token.kind :: t.pending.map (·.kind)) := by
  have hnext := nextToken_of_nextGroup hpending hfailed
  unfold outcome
  cases hgroup : nextGroup s with
  | error e t =>
      rw [hgroup] at hnext
      rw [run_of_error hnext]
      rfl
  | ok found t =>
      rw [hgroup] at hnext
      cases found with
      | none =>
          rw [run_of_none hnext]
          rfl
      | some token =>
          obtain ⟨htokens, herror⟩ := run_of_pending (s := t) rfl
          rw [run_of_some hnext, Run.cons, htokens, herror, List.map_cons, List.map_append]
          rfl

theorem outcome_trivia (hpending : s.pending = []) (hfailed : s.failed = false)
    {trivia : List UInt8} (h : Trivia trivia) (rest : List UInt8) (p : Position) :
    ∃ layer, (s.facing (trivia ++ rest) p).outcome =
      ({ s with layer }.facing rest (p.afterAll trivia)).outcome := by
  obtain ⟨layer, hgroup⟩ := nextGroup_trivia h s rest p
  refine ⟨layer, ?_⟩
  rw [outcome_eq (s := s.facing _ p) hpending hfailed,
    outcome_eq (s := ({ s with layer } : Lexer).facing rest _) hpending hfailed, hgroup]

/-- The first byte of a declaration, by which it is told from what else there is. -/
theorem exists_first {words : List String} {bytes : List UInt8}
    (h : WritesWords false words bytes)
    (hfirst : ∀ word c, words.head? = some word → word.toList.head? = some c → c ≠ '-' ∧ c ≠ '/')
    (hstart : ∀ b, bytes.head? = some b → isGap b = false) :
    ∃ b more, bytes = b :: more ∧ (isGap b || isLineBreak b) = false ∧ b ≠ 0x2d ∧ b ≠ 0x2f := by
  have hgap (gap more : List UInt8) (hblank : ∀ b ∈ gap, isGap b = true)
      (hbytes : bytes = gap ++ more) : gap = [] := by
    cases gap with
    | nil => rfl
    | cons b gap =>
        have hb := hstart b (by rw [hbytes]; rfl)
        rw [hblank b List.mem_cons_self] at hb
        cases hb
  cases h with
  | stop blank =>
      obtain rfl := hgap _ _ blank rfl
      exact ⟨0x3b, [], rfl, by decide, by decide, by decide⟩
  | equals blank =>
      obtain rfl := hgap _ _ blank rfl
      exact ⟨0x3d, _, rfl, by decide, by decide, by decide⟩
  | @lexeme _ gap more word words lexeme blank _ _ =>
      obtain rfl := hgap _ _ blank rfl
      obtain ⟨b, tail, hbytes, hword, hmarks⟩ := exists_first_byte lexeme (hfirst word · rfl)
      rw [hbytes]
      exact ⟨b, tail ++ more, rfl, not_blank_of_isWordByte hword, hmarks⟩

theorem outcome_mark {name : String} (h : ∀ c ∈ name.toList, c ∉ ['-', '\n', '\r'])
    (hpending : s.pending = []) (hfailed : s.failed = false) (rest : List UInt8) (p : Position) :
    ∃ (t : Lexer) (p' : Position), t.pending = [] ∧ t.failed = false ∧
      (s.facing (0x2d :: 0x2d :: 0x2d ::
        (Text.toUtf8 name ++ 0x2d :: 0x2d :: 0x2d :: rest)) p).outcome =
        (t.facing rest p').outcome.next (Item.mark name).kinds := by
  have hname : ∀ b ∈ Text.toUtf8 name, (b != 0x2d && !isLineBreak b) = true := by
    intro b hb
    have hbytes : b ∉ [0x2d, 0x0a, 0x0d] := Text.notMem_of_mem_toUtf8 (by simp) h b hb
    simp only [List.mem_cons, List.not_mem_nil, or_false, not_or] at hbytes
    simp [isLineBreak, hbytes]
  obtain ⟨p', hgroup⟩ := nextGroup_facing_name hname s rest p
  rw [outcome_eq (s := s.facing _ p) hpending hfailed, hgroup, Item.kinds]
  cases Category.ofSectionName? name with
  | none => exact ⟨s, p', hpending, hfailed, rfl⟩
  | some category =>
      refine ⟨{ s with category }, p', hpending, hfailed, ?_⟩
      have hsame : { ({ s with category } : Lexer).facing rest p' with pending := [] } =
          ({ s with category } : Lexer).facing rest p' := by
        rw [← hpending]
        rfl
      dsimp only
      rw [hsame]
      exact congrArg (fun pending => Outcome.behind (_ :: List.map _ pending) _) hpending

theorem outcome_declaration {words : List String} {bytes : List UInt8}
    (h : (Item.declaration words).Writes bytes)
    (hpending : s.pending = []) (hfailed : s.failed = false) (rest : List UInt8) (p : Position) :
    ∃ p', (s.facing (bytes ++ rest) p).outcome =
      (s.facing rest p').outcome.next (Item.declaration words).kinds := by
  cases h with
  | declaration writes first start =>
  obtain ⟨b, more, rfl, hblank, hdash, hslash⟩ := exists_first writes first start
  obtain ⟨read, stop, p', htexts, hgroup⟩ :=
    nextGroup_facing_declaration writes hblank hdash hslash s rest p
  have halike : Alike (Statement.tokens ⟨read, stop⟩)
      (Statement.tokens ⟨words.map (⟨·, .start⟩), .start⟩) := by
    apply Statement.tokens_alike
    rw [htexts, List.map_map]
    exact (List.map_id words).symm
  have hkinds : (Item.declaration words).kinds = kindsOf (Statement.tokens ⟨read, stop⟩) :=
    halike.symm
  refine ⟨p', ?_⟩
  have hrest := outcome_eq (s := s.facing rest p') hpending hfailed
  rw [hkinds, outcome_eq (s := s.facing _ p) hpending hfailed, List.cons_append, hgroup]
  cases Statement.tokens ⟨read, stop⟩ with
  | error e => rfl
  | ok tokens =>
      cases tokens with
      | nil => exact hrest.symm
      | cons token later =>
          have hsame : { s.facing rest p' with pending := [] } = s.facing rest p' := by
            rw [← hpending]
            rfl
          dsimp only
          rw [hsame]
          rfl

/-! ## A whole text -/

/-- What a lexer gives for a text that writes items is what the items say. -/
theorem outcome_facing {items : List Item} {bytes : List UInt8} (h : WritesItems items bytes)
    (hpending : s.pending = []) (hfailed : s.failed = false) (p : Position) :
    (s.facing bytes p).outcome = Item.outcome items := by
  induction h generalizing s p with
  | @nil trivia between =>
      obtain ⟨layer, htrivia⟩ := outcome_trivia hpending hfailed between [] p
      rw [List.append_nil] at htrivia
      rw [htrivia, outcome_eq (s := ({ s with layer } : Lexer).facing [] _) hpending hfailed,
        nextGroup_eq, skipTrivia_eq, next_facing_nil]
      rfl
  | @cons item items trivia bytes more between writes _ ih =>
      obtain ⟨layer, htrivia⟩ := outcome_trivia hpending hfailed between (bytes ++ more) p
      rw [htrivia]
      cases item with
      | mark name =>
          cases writes with
          | mark legible =>
          obtain ⟨t, p', htpending, htfailed, hitem⟩ :=
            outcome_mark (s := { s with layer }) legible hpending hfailed more (p.afterAll trivia)
          rw [Item.outcome, ← ih htpending htfailed p', ← hitem]
          simp
      | declaration words =>
          obtain ⟨p', hitem⟩ :=
            outcome_declaration (s := { s with layer }) writes hpending hfailed more
              (p.afterAll trivia)
          rw [hitem, ih (s := { s with layer }) hpending hfailed, Item.outcome]

theorem outcome_whole (s : Lexer) : s.whole.outcome = s.outcome := by
  unfold outcome
  fun_induction run s with
  | case1 s token t h ih =>
      have hwhole := nextToken_whole s
      rw [h] at hwhole
      rw [run_of_some hwhole]
      exact congrArg (Outcome.behind [token.kind]) ih
  | case2 s t h =>
      have hwhole := nextToken_whole s
      rw [h] at hwhole
      rw [run_of_none hwhole]
  | case3 s e t h =>
      have hwhole := nextToken_whole s
      rw [h] at hwhole
      rw [run_of_error hwhole]

/-- What a lexer gives for a source that writes items, however its bytes arrive. -/
theorem outcome_ofSource {items : List Item} {source : List Delivery} (capacity : Nat)
    (h : WritesItems items (Delivery.bytes source)) (hfailure : Delivery.failure? source = none) :
    (ofSource source capacity).outcome = Item.outcome items := by
  have hwhole : (ofSource source capacity).whole =
      (ofSource source capacity).facing (Delivery.bytes source) .start := by
    simp only [whole, ofSource, Feed.whole, Delivery.ending, hfailure, facing]
    rfl
  rw [← outcome_whole, hwhole]
  exact outcome_facing h rfl rfl .start

/-- Two sources that write the same items give the same kinds of tokens. If one of them has a fault,
the other has the same fault behind the same tokens. -/
theorem run_of_same_items {items : List Item} {source source' : List Delivery}
    (capacity capacity' : Nat) (h : WritesItems items (Delivery.bytes source))
    (h' : WritesItems items (Delivery.bytes source'))
    (hfailure : Delivery.failure? source = none) (hfailure' : Delivery.failure? source' = none) :
    (ofSource source capacity).run.tokens.map (·.kind) =
        (ofSource source' capacity').run.tokens.map (·.kind) ∧
      (ofSource source capacity).run.error.map (·.fault) =
        (ofSource source' capacity').run.error.map (·.fault) := by
  have hsame : (ofSource source capacity).outcome = (ofSource source' capacity').outcome := by
    rw [outcome_ofSource capacity h hfailure, outcome_ofSource capacity' h' hfailure']
  exact ⟨congrArg Outcome.kinds hsame, congrArg Outcome.fault hsame⟩

/-- A declaration whose identifier is derived, written without any blank that it does not need, and
with many of them behind a comment. -/
theorem run_of_same_items_spaced :
    let dense := ofBytes (Text.toUtf8 "---functions---f x:int=A;")
    let spread := ofBytes (Text.toUtf8 "// f;\r\n---functions---\n\tf  x:int\t= A ;\n")
    dense.run.tokens.map (·.kind) = spread.run.tokens.map (·.kind) ∧
      dense.run.error.map (·.fault) = spread.run.error.map (·.fault) := by
  have hfirst : ∀ word c, ["f", "x:int", "=", "A"].head? = some word →
      word.toList.head? = some c → c ≠ '-' ∧ c ≠ '/' := by
    rintro word c ⟨⟩ ⟨⟩
    decide
  have hlexeme : IsLexeme "f" ∧ IsLexeme "x:int" ∧ IsLexeme "A" := by
    refine ⟨⟨?_, ?_⟩, ⟨?_, ?_⟩, ⟨?_, ?_⟩⟩ <;> simp [separators]
  obtain ⟨hf, hx, hA⟩ := hlexeme
  have hdense : WritesWords false ["f", "x:int", "=", "A"] (Text.toUtf8 "f x:int=A;") :=
    @WritesWords.lexeme _ [] _ _ _ hf (by simp) (by simp)
      (@WritesWords.lexeme _ [0x20] _ _ _ hx (by simp [isGap]) (by simp)
        (@WritesWords.equals _ [] _ _ (by simp)
          (@WritesWords.lexeme _ [] _ _ _ hA (by simp) (by simp)
            (@WritesWords.stop _ [] (by simp)))))
  have hspread : WritesWords false ["f", "x:int", "=", "A"] (Text.toUtf8 "f  x:int\t= A ;") :=
    @WritesWords.lexeme _ [] _ _ _ hf (by simp) (by simp)
      (@WritesWords.lexeme _ [0x20, 0x20] _ _ _ hx (by simp [isGap]) (by simp)
        (@WritesWords.equals _ [0x09] _ _ (by simp [isGap])
          (@WritesWords.lexeme _ [0x20] _ _ _ hA (by simp [isGap]) (by simp)
            (@WritesWords.stop _ [0x20] (by simp [isGap])))))
  have hmark : (Item.mark "functions").Writes (Text.toUtf8 "---functions---") :=
    .mark (by simp)
  have hcomment : Trivia (Text.toUtf8 "// f;\r\n") :=
    @Trivia.comment (Text.toUtf8 " f;\r") [] (by decide) .nil
  have hdeclaration := Item.Writes.declaration hdense hfirst (by rintro b ⟨⟩; rfl)
  have hdeclaration' := Item.Writes.declaration hspread hfirst (by rintro b ⟨⟩; rfl)
  have hitems := WritesItems.cons .nil hmark (.cons .nil hdeclaration (.nil .nil))
  have hitems' := WritesItems.cons hcomment hmark
    (.cons (.blank (b := 0x0a) rfl (.blank (b := 0x09) rfl .nil)) hdeclaration'
      (.nil (.blank (b := 0x0a) rfl .nil)))
  exact run_of_same_items _ _ hitems hitems' rfl rfl

end Lexer

end TypeLang
