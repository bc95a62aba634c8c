import TypeLang.Token.Lexer

/-!
# What a scan looks at

A scan looks at the bytes of a lexer, its position, its section and its layer. It does not look at
how the feed keeps the bytes, nor at the pending tokens and the mark of failure, which only
`Lexer.nextToken` handles. `Scan.SeesBytes` says so: a scan commutes with every exchange of these
three (`Lexer.refit`). Two facts follow for each scan at once: it leaves the pending tokens and the
mark as they are (`SeesBytes.frame_ok`), and it works alike on every feed with the same bytes.
-/

namespace TypeLang

/-! ## Exchanging the feed -/

namespace Feed

def mapNext (exchange : Feed → Feed) :
    Except String (Option (UInt8 × Feed)) → Except String (Option (UInt8 × Feed))
  | .error reason => .error reason
  | .ok none => .ok none
  | .ok (some (b, g)) => .ok (some (b, exchange g))

def KeepsBytes (exchange : Feed → Feed) : Prop :=
  ∀ f, (exchange f).next = mapNext exchange f.next

theorem keepsBytes_id : KeepsBytes id := by
  intro f
  change f.next = mapNext id f.next
  rcases f.next with reason | _ | ⟨b, g⟩ <;> rfl

end Feed

namespace Lexer

def refit (exchange : Feed → Feed) (pending : List Token) (failed : Bool) (s : Lexer) : Lexer :=
  { s with feed := exchange s.feed, pending, failed }

end Lexer

/-! ## Combining scans -/

namespace Scan

variable {α β : Type}

theorem bind_of_eq_ok {x : Scan α} {f : α → Scan β} {s t : Lexer} {a : α} (h : x s = .ok a t) :
    (x >>= f) s = f a t := by
  change EStateM.bind x f s = f a t
  unfold EStateM.bind
  rw [h]

theorem map_eq_ok {x : Scan α} {f : α → β} {s t : Lexer} {b : β} :
    (f <$> x) s = .ok b t ↔ ∃ a, x s = .ok a t ∧ f a = b := by
  change EStateM.map f x s = .ok b t ↔ _
  unfold EStateM.map
  cases x s with
  | ok a u =>
      simp only [EStateM.Result.ok.injEq]
      exact ⟨fun ⟨hb, hu⟩ => ⟨a, ⟨rfl, hu⟩, hb⟩, fun ⟨_, ⟨ha, hu⟩, hb⟩ => ⟨ha ▸ hb, hu⟩⟩
  | error e u => simp

def mapLexer (f : Lexer → Lexer) : EStateM.Result LexError Lexer α → EStateM.Result LexError Lexer α
  | .ok a s => .ok a (f s)
  | .error e s => .error e (f s)

theorem eq_ok_of_mapLexer {f : Lexer → Lexer} {r : EStateM.Result LexError Lexer α}
    {a : α} {t : Lexer} (h : mapLexer f r = .ok a t) : ∃ u, r = .ok a u ∧ f u = t := by
  cases r with
  | ok b u =>
      obtain ⟨rfl, rfl⟩ := EStateM.Result.ok.inj h
      exact ⟨u, rfl, rfl⟩
  | error e u => cases h

theorem eq_error_of_mapLexer {f : Lexer → Lexer} {r : EStateM.Result LexError Lexer α}
    {e : LexError} {t : Lexer} (h : mapLexer f r = .error e t) : ∃ u, r = .error e u ∧ f u = t := by
  cases r with
  | ok b u => cases h
  | error e' u =>
      obtain ⟨rfl, rfl⟩ := EStateM.Result.error.inj h
      exact ⟨u, rfl, rfl⟩

/-- The scan commutes with an exchange of the feed, the pending tokens and the mark of failure. -/
def SeesBytes (x : Scan α) : Prop :=
  ∀ exchange, Feed.KeepsBytes exchange → ∀ pending failed s,
    x (s.refit exchange pending failed) = mapLexer (Lexer.refit exchange pending failed) (x s)

namespace SeesBytes

theorem pure (a : α) : SeesBytes (Pure.pure a : Scan α) :=
  fun _ _ _ _ _ => rfl

theorem throw (e : LexError) : SeesBytes (MonadExcept.throw e : Scan α) :=
  fun _ _ _ _ _ => rfl

theorem fail (fault : LexFault) : SeesBytes (Lexer.fail fault : Scan α) :=
  fun _ _ _ _ _ => rfl

theorem bind {x : Scan α} {f : α → Scan β} (hx : SeesBytes x) (hf : ∀ a, SeesBytes (f a)) :
    SeesBytes (x >>= f) := by
  intro exchange hexchange pending failed s
  change EStateM.bind x f (s.refit exchange pending failed) =
    mapLexer (Lexer.refit exchange pending failed) (EStateM.bind x f s)
  unfold EStateM.bind
  rw [hx exchange hexchange pending failed s]
  cases x s with
  | ok a t => exact hf a exchange hexchange pending failed t
  | error e t => rfl

/-- Of the lexer itself only what an exchange keeps may be used, such as the position. -/
theorem bind_get {f : Lexer → Scan β} (hf : ∀ s, SeesBytes (f s))
    (hrefit : ∀ exchange pending failed s, f (s.refit exchange pending failed) = f s) :
    SeesBytes (get >>= f) := by
  intro exchange hexchange pending failed s
  change f (s.refit exchange pending failed) (s.refit exchange pending failed) =
    mapLexer (Lexer.refit exchange pending failed) (f s s)
  rw [hrefit]
  exact hf s exchange hexchange pending failed s

theorem map {x : Scan α} (f : α → β) (hx : SeesBytes x) : SeesBytes (f <$> x) := by
  intro exchange hexchange pending failed s
  change EStateM.map f x (s.refit exchange pending failed) =
    mapLexer (Lexer.refit exchange pending failed) (EStateM.map f x s)
  unfold EStateM.map
  rw [hx exchange hexchange pending failed s]
  cases x s <;> rfl

/-- The scan leaves the pending tokens and the mark of failure as they are. -/
theorem frame {x : Scan α} (hx : SeesBytes x) (s : Lexer) :
    x s = mapLexer (Lexer.refit id s.pending s.failed) (x s) :=
  hx id Feed.keepsBytes_id s.pending s.failed s

theorem frame_ok {x : Scan α} {s t : Lexer} {a : α} (hx : SeesBytes x) (h : x s = .ok a t) :
    t.pending = s.pending ∧ t.failed = s.failed := by
  have hframe := hx.frame s
  rw [h] at hframe
  simp only [mapLexer, EStateM.Result.ok.injEq, true_and] at hframe
  rw [hframe]
  exact ⟨rfl, rfl⟩

theorem frame_error {x : Scan α} {s t : Lexer} {e : LexError} (hx : SeesBytes x)
    (h : x s = .error e t) : t.pending = s.pending ∧ t.failed = s.failed := by
  have hframe := hx.frame s
  rw [h] at hframe
  simp only [mapLexer, EStateM.Result.error.injEq, true_and] at hframe
  rw [hframe]
  exact ⟨rfl, rfl⟩

end SeesBytes

end Scan

namespace Lexer

open Scan

/-! ## Recursive scans, one round unfolded -/

theorem takeWhileFrom_eq (keep : UInt8 → Bool) (taken : List UInt8) (s : Lexer) :
    takeWhileFrom keep taken s =
      match s.feed.next with
      | .error reason => .error ⟨.io reason, s.position⟩ s
      | .ok none => .ok taken.reverse s
      | .ok (some (b, feed)) =>
        if keep b then takeWhileFrom keep (b :: taken) (s.step b feed)
        else .ok taken.reverse s := by
  rw [takeWhileFrom]
  split <;> rename_i h <;> rw [h]

theorem wordsFrom_eq (words : List Word) (s : Lexer) :
    wordsFrom words s =
      match nextWord s with
      | .error e t => .error e t
      | .ok w t =>
        if w.text = ";" then .ok ⟨words.reverse, w.position⟩ t else wordsFrom (w :: words) t := by
  rw [wordsFrom]
  split <;> rename_i h <;> rw [h]

theorem skipTrivia_eq (s : Lexer) :
    skipTrivia s =
      match s.feed.next with
      | .error reason => .error ⟨.io reason, s.position⟩ s
      | .ok none => .ok () s
      | .ok (some (b, feed)) =>
        if isGap b || isLineBreak b then skipTrivia (s.step b feed)
        else if b = 0x2f then
          match comment (s.step b feed) with
          | .error e t => .error e t
          | .ok _ t => skipTrivia t
        else .ok () s := by
  rw [skipTrivia]
  split <;> rename_i h <;> simp only [h]
  split
  · rfl
  · split
    · split <;> rename_i hc <;> simp only [hc]
    · rfl

theorem nextGroup_eq (s : Lexer) :
    nextGroup s =
      match skipTrivia s with
      | .error e t => .error e t
      | .ok _ t =>
        match peek t with
        | .error e t => .error e t
        | .ok none t => .ok none t
        | .ok (some b) _ =>
          if b = 0x2d then (some <$> sectionMark) t
          else
            match declaration t with
            | .error e u => .error e u
            | .ok [] u => nextGroup u
            | .ok (token :: rest) u => .ok (some token) { u with pending := rest } := by
  rw [nextGroup]
  split
  · rename_i h
    rw [h]
  · rename_i t h
    simp only [h]
    rcases peek t with ⟨_ | b, u⟩ | ⟨e, u⟩
    · rfl
    · simp only
      split
      · rfl
      · split <;> rename_i hd <;> simp only [hd]
    · rfl

/-! ## The scans of the lexer -/

section

variable {exchange : Feed → Feed}

theorem next_refit (hexchange : Feed.KeepsBytes exchange) (pending : List Token) (failed : Bool)
    (s : Lexer) :
    (s.refit exchange pending failed).feed.next = Feed.mapNext exchange s.feed.next :=
  hexchange s.feed

theorem step_refit (pending : List Token) (failed : Bool) (s : Lexer) (b : UInt8) (feed : Feed) :
    (s.refit exchange pending failed).step b (exchange feed) =
      (s.step b feed).refit exchange pending failed :=
  rfl

end

theorem peek_seesBytes : SeesBytes peek := by
  intro exchange hexchange pending failed s
  unfold peek
  rw [next_refit hexchange]
  rcases s.feed.next with reason | _ | ⟨b, feed⟩ <;> rfl

theorem peekInside_seesBytes : SeesBytes peekInside := by
  intro exchange hexchange pending failed s
  unfold peekInside
  rw [peek_seesBytes exchange hexchange]
  rcases peek s with ⟨_ | b, t⟩ | ⟨e, t⟩
  · rfl
  · simp only [mapLexer]
    split <;> rfl
  · rfl

theorem advance_seesBytes : SeesBytes advance := by
  intro exchange hexchange pending failed s
  unfold advance
  rw [next_refit hexchange]
  rcases s.feed.next with reason | _ | ⟨b, feed⟩ <;> rfl

theorem expect_seesBytes (b : UInt8) : SeesBytes (expect b) := by
  refine peekInside_seesBytes.bind fun found => ?_
  cases found with
  | none => exact .fail _
  | some c =>
      change SeesBytes (if c = b then advance else fail (.character c))
      split
      · exact advance_seesBytes
      · exact .fail _

theorem takeWhileFrom_seesBytes (keep : UInt8 → Bool) (taken : List UInt8) :
    SeesBytes (takeWhileFrom keep taken) := by
  intro exchange hexchange pending failed s
  rw [takeWhileFrom_eq, next_refit hexchange]
  fun_induction takeWhileFrom keep taken s with
  | case1 taken s reason h => rw [h]; rfl
  | case2 taken s h => rw [h]; rfl
  | case3 taken s b feed h hkeep ih =>
      rw [h]
      simp only [Feed.mapNext, hkeep, if_true, step_refit]
      rw [takeWhileFrom_eq, next_refit hexchange]
      exact ih
  | case4 taken s b feed h hkeep =>
      rw [h]
      simp only [Feed.mapNext, hkeep]
      rfl

theorem takeWhile_seesBytes (keep : UInt8 → Bool) : SeesBytes (takeWhile keep) :=
  takeWhileFrom_seesBytes keep []

theorem nextWord_seesBytes : SeesBytes nextWord := by
  refine (takeWhile_seesBytes _).bind fun _ => .bind_get (fun here => ?_) fun _ _ _ _ => rfl
  refine peekInside_seesBytes.bind fun first => ?_
  split
  · exact advance_seesBytes.bind fun _ => .pure _
  · refine (takeWhile_seesBytes _).bind fun bytes => peekInside_seesBytes.bind fun _ => ?_
    split
    · exact .fail _
    · split
      · exact .throw _
      · exact .pure _

theorem wordsFrom_seesBytes (words : List Word) : SeesBytes (wordsFrom words) := by
  intro exchange hexchange pending failed s
  rw [wordsFrom_eq, nextWord_seesBytes exchange hexchange]
  fun_induction wordsFrom words s with
  | case1 words s e t h => rw [h]; rfl
  | case2 words s w t h hstop =>
      rw [h]
      simp only [mapLexer, hstop, if_true]
  | case3 words s w t h hstop ih =>
      rw [h]
      simp only [mapLexer, hstop, if_false]
      rw [wordsFrom_eq, nextWord_seesBytes exchange hexchange]
      exact ih

theorem statement_seesBytes : SeesBytes statement :=
  wordsFrom_seesBytes []

theorem declaration_seesBytes : SeesBytes declaration := by
  refine statement_seesBytes.bind fun words => ?_
  split
  · exact .throw _
  · exact .pure _

theorem comment_seesBytes : SeesBytes comment := by
  refine peek_seesBytes.bind fun second => ?_
  split
  · refine advance_seesBytes.bind fun _ => (takeWhile_seesBytes _).bind fun text => ?_
    exact fun _ _ _ _ _ => rfl
  · split <;> exact .fail _

theorem skipTrivia_seesBytes : SeesBytes skipTrivia := by
  intro exchange hexchange pending failed s
  rw [skipTrivia_eq, next_refit hexchange]
  fun_induction skipTrivia s with
  | case1 s reason h => rw [h]; rfl
  | case2 s h => rw [h]; rfl
  | case3 s b feed h hblank ih =>
      rw [h]
      simp only [Feed.mapNext, hblank, if_true, step_refit]
      rw [skipTrivia_eq, next_refit hexchange]
      exact ih
  | case4 s feed e t h hblank hcomment =>
      have hrefit := comment_seesBytes exchange hexchange pending failed (s.step 0x2f feed)
      rw [h]
      simp only [Feed.mapNext, hblank, Bool.false_eq_true, if_false, if_true, step_refit, hrefit,
        hcomment]
      rfl
  | case5 s feed u t h hblank hcomment ih =>
      have hrefit := comment_seesBytes exchange hexchange pending failed (s.step 0x2f feed)
      rw [h]
      simp only [Feed.mapNext, hblank, Bool.false_eq_true, if_false, if_true, step_refit, hrefit,
        hcomment]
      change skipTrivia (t.refit exchange pending failed) = _
      rw [skipTrivia_eq, next_refit hexchange]
      exact ih
  | case6 s b feed h hblank hslash =>
      rw [h]
      simp only [Feed.mapNext, hblank, hslash]
      rfl

theorem sectionMark_seesBytes : SeesBytes sectionMark := by
  refine .bind_get (fun here => ?_) fun _ _ _ _ => rfl
  refine (expect_seesBytes _).bind fun _ => (expect_seesBytes _).bind fun _ => ?_
  refine (expect_seesBytes _).bind fun _ => (takeWhile_seesBytes _).bind fun name => ?_
  refine (expect_seesBytes _).bind fun _ => (expect_seesBytes _).bind fun _ => ?_
  refine (expect_seesBytes _).bind fun _ => ?_
  split
  · exact .throw _
  · split
    · exact .throw _
    · exact fun _ _ _ _ _ => rfl

end Lexer

end TypeLang
