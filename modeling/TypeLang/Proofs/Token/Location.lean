import Mathlib.Data.List.Basic
import Mathlib.Data.List.TakeWhile
import TypeLang.Proofs.Token.Delivery

/-!
# Where a lexer stands

A lexer counts its position on, byte by byte. `Position.ofOffset` says what it comes to: the line and
the column of an offset follow from the bytes in front of it. `Lexer.At` ties a lexer to its input,
and `Scan.Tracks` says of a scan that it moves forward in the input and that errors point into it.
A word that was read stands in the input where its position says (`Lexer.nextWord_tracks`).
-/

namespace TypeLang

/-! ## Positions -/

namespace Position

variable {input bytes : List UInt8} {p : Position}

/-- The position of the byte at an offset: the line is counted by the line feeds in front of it, the
column by the bytes since the last of them. -/
def ofOffset (input : List UInt8) (offset : Nat) : Position :=
  ⟨offset, 1 + (input.take offset).count 0x0a,
    1 + ((input.take offset).reverse.takeWhile (· != 0x0a)).length⟩

structure Located (input : List UInt8) (p : Position) : Prop where
  le : p.offset ≤ input.length
  eq : p = ofOffset input p.offset

theorem start_located (input : List UInt8) : start.Located input :=
  ⟨Nat.zero_le _, rfl⟩

@[simp] theorem offset_after (p : Position) (b : UInt8) : (p.after b).offset = p.offset + 1 := by
  unfold after
  split <;> rfl

@[simp] theorem offset_afterAll (p : Position) (bytes : List UInt8) :
    (p.afterAll bytes).offset = p.offset + bytes.length := by
  induction bytes generalizing p with
  | nil => rfl
  | cons b bytes ih =>
      change ((p.after b).afterAll bytes).offset = _
      rw [ih, offset_after, List.length_cons]
      omega

theorem ofOffset_succ {offset : Nat} {b : UInt8} (hb : input[offset]? = some b) :
    ofOffset input (offset + 1) = (ofOffset input offset).after b := by
  have htake : input.take (offset + 1) = input.take offset ++ [b] := by
    rw [List.take_add_one, hb]
    rfl
  unfold ofOffset after
  rw [htake, List.reverse_concat, List.count_append]
  by_cases hline : b = 0x0a
  · simp [hline, Nat.add_assoc]
  · simp [hline, Nat.add_comm]

theorem Located.after (h : p.Located input) {b : UInt8} (hb : input[p.offset]? = some b) :
    (p.after b).Located input := by
  obtain ⟨hlt, -⟩ := List.getElem?_eq_some_iff.mp hb
  constructor
  · rw [offset_after]
    exact hlt
  · rw [offset_after, ofOffset_succ hb, ← h.eq]

theorem Located.afterAll (h : p.Located input) (hbytes : bytes <+: input.drop p.offset) :
    (p.afterAll bytes).Located input := by
  induction bytes generalizing p with
  | nil => exact h
  | cons b bytes ih =>
      obtain ⟨rest, hrest⟩ := hbytes
      have hb : input[p.offset]? = some b := by
        rw [← List.head?_drop, ← hrest]
        rfl
      refine ih (h.after hb) ⟨rest, ?_⟩
      rw [offset_after, ← List.tail_drop, ← hrest]
      rfl

theorem afterAll_eq_skip (hline : 0x0a ∉ bytes) : p.afterAll bytes = p.skip bytes.length := by
  induction bytes generalizing p with
  | nil => rfl
  | cons b bytes ih =>
      rw [List.mem_cons, not_or] at hline
      obtain ⟨hb, hbytes⟩ := hline
      change (p.after b).afterAll bytes = _
      rw [ih hbytes, after, if_neg (Ne.symm hb), skip, skip, List.length_cons]
      simp only [mk.injEq, true_and]
      omega

end Position

/-! ## Words of the input -/

namespace Lexer

/-- The word at the start of some bytes: a mark, or all bytes up to the next gap, mark or line
break. -/
def leadingWord : List UInt8 → List UInt8
  | [] => []
  | b :: rest => if isMark b then [b] else (b :: rest).takeWhile isWordByte

def wordAt (input : List UInt8) (offset : Nat) : List UInt8 :=
  leadingWord (input.drop offset)

def Starts (input : List UInt8) (offset : Nat) : Prop :=
  ∀ b, (input.take offset).getLast? = some b → isWordByte b = false

variable {input front back : List UInt8} {offset : Nat}

theorem isWordByte_lineFeed : isWordByte 0x0a = false := by
  decide

theorem isWordByte_of_isMark {b : UInt8} (h : isMark b = true) : isWordByte b = false := by
  simp [isWordByte, h]

theorem isWordByte_of_isGap {b : UInt8} (h : isGap b = true) : isWordByte b = false := by
  simp [isWordByte, h]

theorem leadingWord_of_isMark {b : UInt8} {rest : List UInt8} (h : isMark b = true) :
    leadingWord (b :: rest) = [b] := by
  rw [leadingWord, if_pos h]

theorem isMark_of_isWordByte {b : UInt8} (h : isWordByte b = true) : isMark b = false := by
  by_contra hmark
  rw [isWordByte_of_isMark (by simpa using hmark)] at h
  cases h

theorem leadingWord_of_isWordByte {b : UInt8} {rest : List UInt8} (h : isWordByte b = true) :
    leadingWord (b :: rest) = (b :: rest).takeWhile isWordByte := by
  rw [leadingWord, isMark_of_isWordByte h, if_neg Bool.false_ne_true]

theorem leadingWord_of_takeWhile {bytes word : List UInt8} (h : bytes.takeWhile isWordByte = word)
    (hne : word ≠ []) : leadingWord bytes = word := by
  subst h
  cases bytes with
  | nil => rfl
  | cons b rest =>
      apply leadingWord_of_isWordByte
      by_contra hb
      rw [List.takeWhile_cons_of_neg hb] at hne
      exact hne rfl

theorem leadingWord_prefix (bytes : List UInt8) : leadingWord bytes <+: bytes := by
  unfold leadingWord
  split
  · exact List.prefix_rfl
  · split
    · exact ⟨_, rfl⟩
    · exact List.takeWhile_prefix _

theorem lineFeed_notMem_leadingWord (bytes : List UInt8) : 0x0a ∉ leadingWord bytes := by
  unfold leadingWord
  split
  · exact List.not_mem_nil
  · split
    · rename_i hmark
      rw [List.mem_singleton]
      rintro rfl
      exact absurd hmark (by decide)
    · intro hmem
      have hword := List.mem_takeWhile_imp hmem
      rw [isWordByte_lineFeed] at hword
      cases hword

theorem takeWhile_drop {keep : UInt8 → Bool} {bytes : List UInt8}
    (h : bytes.takeWhile keep = front ++ back) :
    (bytes.drop front.length).takeWhile keep = back := by
  induction front generalizing bytes with
  | nil => exact h
  | cons b front ih =>
      cases bytes with
      | nil => cases h
      | cons c bytes =>
          rw [List.takeWhile_cons] at h
          split at h
          · exact ih (List.cons.inj h).2
          · cases h

theorem wordAt_append (h : wordAt input offset = front ++ back) (hfront : front ≠ [])
    (hback : back ≠ []) : wordAt input (offset + front.length) = back := by
  have hword : (input.drop offset).takeWhile isWordByte = front ++ back := by
    rw [wordAt] at h
    unfold leadingWord at h
    split at h
    · exact absurd (List.append_eq_nil_iff.mp h.symm).1 hfront
    · split at h
      · have hlength := congrArg List.length h
        rw [List.length_singleton, List.length_append] at hlength
        have hfront := List.length_pos_iff.mpr hfront
        have hback := List.length_pos_iff.mpr hback
        omega
      · rename_i hdrop _
        rw [hdrop]
        exact h
  rw [wordAt, ← List.drop_drop]
  exact leadingWord_of_takeWhile (takeWhile_drop hword) hback

end Lexer

/-! ## Lexers at their input -/

/-- A feed that hands on no byte has none left, even if it fails. -/
theorem Feed.remaining_eq_nil {f : Feed} (h : ∀ b g, f.next ≠ .ok (some (b, g))) :
    f.remaining = [] := by
  have hwhole := whole_keepsBytes f
  rw [whole] at hwhole
  cases hbytes : f.remaining with
  | nil => rfl
  | cons b rest =>
      rw [hbytes] at hwhole
      rcases hnext : f.next with reason | _ | ⟨c, g⟩
      · rw [hnext] at hwhole
        cases hwhole
      · rw [hnext] at hwhole
        cases hwhole
      · exact absurd hnext (h c g)

/-- What a lexer has in front of it is the input from its position on. -/
structure Lexer.At (input : List UInt8) (s : Lexer) : Prop where
  located : s.position.Located input
  remaining : s.remaining = input.drop s.position.offset

theorem Lexer.offset_step (s : Lexer) (b : UInt8) (feed : Feed) :
    (s.step b feed).position.offset = s.position.offset + 1 :=
  Position.offset_after _ _

namespace Lexer.At

variable {input : List UInt8} {s : Lexer} {b : UInt8} {feed : Feed}

theorem start (source : List Delivery) (capacity : Nat) :
    (Lexer.ofSource source capacity).At (Delivery.bytes source) :=
  ⟨Position.start_located _, rfl⟩

theorem drop_eq_nil (h : s.At input) (hnext : ∀ b g, s.feed.next ≠ .ok (some (b, g))) :
    input.drop s.position.offset = [] := by
  rw [← h.remaining]
  exact Feed.remaining_eq_nil hnext

theorem drop_eq_cons (h : s.At input) (hnext : s.feed.next = .ok (some (b, feed))) :
    input.drop s.position.offset = b :: input.drop (s.position.offset + 1) := by
  have hdrop : input.drop s.position.offset = b :: feed.remaining := by
    rw [← h.remaining]
    exact Feed.next_eq_ok_some hnext
  rw [hdrop, ← List.tail_drop, hdrop]
  rfl

theorem step (h : s.At input) (hnext : s.feed.next = .ok (some (b, feed))) :
    (s.step b feed).At input := by
  have hdrop := h.drop_eq_cons hnext
  have hb : input[s.position.offset]? = some b := by
    rw [← List.head?_drop, hdrop]
    rfl
  refine ⟨h.located.after hb, ?_⟩
  have hfeed := Feed.next_eq_ok_some hnext
  have hremaining := h.remaining
  rw [Lexer.remaining, hfeed, hdrop] at hremaining
  change feed.remaining = input.drop (s.position.after b).offset
  rw [Position.offset_after]
  exact (List.cons.inj hremaining).2

end Lexer.At

namespace Scan

variable {α β : Type} {input : List UInt8} {s : Lexer}

/-- From `s` on, the scan moves forward in the input, with an outcome that is good, or it fails with
an error that points into the input. -/
def Tracks (input : List UInt8) (s : Lexer) (x : Scan α) (good : α → Lexer → Prop) : Prop :=
  match x s with
  | .ok a t => t.At input ∧ s.position.offset ≤ t.position.offset ∧ good a t
  | .error e t => t.At input ∧ e.position.Located input

namespace Tracks

variable {x : Scan α} {good : α → Lexer → Prop}

theorem of_ok {t : Lexer} {a : α} (h : Tracks input s x good) (hx : x s = .ok a t) :
    t.At input ∧ s.position.offset ≤ t.position.offset ∧ good a t := by
  unfold Tracks at h
  rwa [hx] at h

theorem of_error {t : Lexer} {e : LexError} (h : Tracks input s x good) (hx : x s = .error e t) :
    t.At input ∧ e.position.Located input := by
  unfold Tracks at h
  rwa [hx] at h

theorem pure {a : α} (hs : s.At input) (ha : good a s) : Tracks input s (Pure.pure a) good :=
  ⟨hs, Nat.le_refl _, ha⟩

theorem throw {e : LexError} (hs : s.At input) (he : e.position.Located input) :
    Tracks input s (MonadExcept.throw e) good :=
  ⟨hs, he⟩

theorem fail {fault : LexFault} (hs : s.At input) : Tracks input s (Lexer.fail fault) good :=
  ⟨hs, hs.located⟩

theorem bind {f : α → Scan β} {good' : β → Lexer → Prop} (hx : Tracks input s x good)
    (hf : ∀ a t, t.At input → s.position.offset ≤ t.position.offset → good a t →
      Tracks input t (f a) good') : Tracks input s (x >>= f) good' := by
  change match EStateM.bind x f s with
    | .ok b u => u.At input ∧ s.position.offset ≤ u.position.offset ∧ good' b u
    | .error e u => u.At input ∧ e.position.Located input
  unfold EStateM.bind
  cases hresult : x s with
  | error e t => exact hx.of_error hresult
  | ok a t =>
      obtain ⟨ht, hle, ha⟩ := hx.of_ok hresult
      have hrest := hf a t ht hle ha
      cases hnext : f a t with
      | error e u =>
          simp only [hnext]
          exact hrest.of_error hnext
      | ok b u =>
          simp only [hnext]
          obtain ⟨hu, hle', hb⟩ := hrest.of_ok hnext
          exact ⟨hu, Nat.le_trans hle hle', hb⟩

theorem map {f : α → β} {good' : β → Lexer → Prop} (hx : Tracks input s x good)
    (hgood : ∀ a t, good a t → good' (f a) t) : Tracks input s (f <$> x) good' :=
  hx.bind fun a t ht _ ha => .pure ht (hgood a t ha)

theorem bind_get {f : Lexer → Scan β} {good : β → Lexer → Prop} (h : Tracks input s (f s) good) :
    Tracks input s (get >>= f) good :=
  h

theorem mono {good' : α → Lexer → Prop} (h : Tracks input s x good)
    (hgood : ∀ a t, good a t → good' a t) : Tracks input s x good' := by
  unfold Tracks at h ⊢
  cases hresult : x s with
  | error e t =>
      rw [hresult] at h
      exact h
  | ok a t =>
      rw [hresult] at h
      exact ⟨h.1, h.2.1, hgood a t h.2.2⟩

end Tracks

end Scan

namespace Lexer

open Scan

variable {input : List UInt8} {s : Lexer}

theorem peek_tracks (hs : s.At input) : Tracks input s peek fun b t =>
    t = s ∧ b = (input.drop s.position.offset).head? := by
  unfold Tracks peek
  cases hnext : s.feed.next with
  | error reason => exact ⟨hs, hs.located⟩
  | ok found =>
      cases found with
      | none =>
          refine ⟨hs, Nat.le_refl _, rfl, ?_⟩
          rw [hs.drop_eq_nil (by simp [hnext])]
          rfl
      | some found =>
          obtain ⟨b, feed⟩ := found
          refine ⟨hs, Nat.le_refl _, rfl, ?_⟩
          rw [hs.drop_eq_cons hnext]
          rfl

theorem peekInside_tracks (hs : s.At input) : Tracks input s peekInside fun b t =>
    t = s ∧ b = (input.drop s.position.offset).head? := by
  have hpeek := peek_tracks hs
  unfold Tracks peekInside
  unfold Tracks at hpeek
  rcases hresult : peek s with ⟨_ | b, t⟩ | ⟨e, t⟩
  · rw [hresult] at hpeek
    exact hpeek
  · rw [hresult] at hpeek
    simp only
    split
    · rename_i hsplit
      split at hsplit
      · cases hsplit
      · cases hsplit
        exact hpeek
    · rename_i hsplit
      split at hsplit
      · cases hsplit
        exact ⟨hpeek.1, hpeek.1.located⟩
      · cases hsplit
  · rw [hresult] at hpeek
    exact hpeek

theorem advance_tracks (hs : s.At input) : Tracks input s advance fun _ t =>
    ∀ b, (input.drop s.position.offset).head? = some b → t.position = s.position.after b := by
  unfold Tracks advance
  have hnone (hnext : ∀ b g, s.feed.next ≠ .ok (some (b, g))) : ∀ b,
      (input.drop s.position.offset).head? = some b → s.position = s.position.after b := by
    intro b hb
    rw [hs.drop_eq_nil hnext] at hb
    cases hb
  rcases hnext : s.feed.next with reason | _ | ⟨b, feed⟩
  · exact ⟨hs, Nat.le_refl _, hnone (by simp [hnext])⟩
  · exact ⟨hs, Nat.le_refl _, hnone (by simp [hnext])⟩
  · refine ⟨hs.step hnext, ?_, fun c hc => ?_⟩
    · change _ ≤ (s.position.after b).offset
      rw [Position.offset_after]
      exact Nat.le_succ _
    · rw [hs.drop_eq_cons hnext] at hc
      cases hc
      rfl

theorem expect_tracks (hs : s.At input) (b : UInt8) :
    Tracks input s (expect b) fun _ _ => True := by
  refine (peekInside_tracks hs).bind fun found t ht _ _ => ?_
  cases found with
  | none => exact .fail ht
  | some c =>
      change Tracks input t (if c = b then advance else fail (.character c)) _
      split
      · exact (advance_tracks ht).mono fun _ _ _ => trivial
      · exact .fail ht

theorem takeWhileFrom_tracks {keep : UInt8 → Bool} {taken : List UInt8} (hs : s.At input) :
    Tracks input s (takeWhileFrom keep taken) fun bytes t => ∃ read, bytes = taken.reverse ++ read ∧
      read = (input.drop s.position.offset).takeWhile keep ∧
      t.position.offset = s.position.offset + read.length := by
  unfold Tracks
  fun_induction takeWhileFrom keep taken s with
  | case1 taken s reason hnext => exact ⟨hs, hs.located⟩
  | case2 taken s hnext =>
      refine ⟨hs, Nat.le_refl _, [], by simp, ?_, rfl⟩
      rw [hs.drop_eq_nil (by simp [hnext])]
      rfl
  | case3 taken s b feed hnext hkeep ih =>
      have hrest := ih (hs.step hnext)
      have hoffset := offset_step s b feed
      have hdrop := hs.drop_eq_cons hnext
      split at hrest
      · obtain ⟨ht, hle, read, hbytes, hread, hstop⟩ := hrest
        rw [hoffset] at hle hread hstop
        refine ⟨ht, by omega, b :: read, ?_, ?_, ?_⟩
        · rw [hbytes, List.reverse_cons, List.append_assoc]
          rfl
        · rw [hdrop, List.takeWhile_cons_of_pos hkeep, hread]
        · rw [hstop, List.length_cons]
          omega
      · exact hrest
  | case4 taken s b feed hnext hkeep =>
      refine ⟨hs, Nat.le_refl _, [], by simp, ?_, rfl⟩
      rw [hs.drop_eq_cons hnext, List.takeWhile_cons_of_neg hkeep]

theorem takeWhile_tracks (keep : UInt8 → Bool) (hs : s.At input) :
    Tracks input s (takeWhile keep) fun bytes t =>
      bytes = (input.drop s.position.offset).takeWhile keep ∧
      t.position.offset = s.position.offset + bytes.length := by
  refine (takeWhileFrom_tracks hs).mono fun bytes _ h => ?_
  obtain ⟨read, rfl, hread, hstop⟩ := h
  exact ⟨hread, hstop⟩

theorem sectionMark_tracks (hs : s.At input) :
    Tracks input s sectionMark fun token _ =>
      token.position = s.position ∧ ∃ category, token.kind = .sectionMark category := by
  refine .bind_get ?_
  refine (expect_tracks hs _).bind fun _ s₁ h₁ _ _ => (expect_tracks h₁ _).bind fun _ s₂ h₂ _ _ => ?_
  refine (expect_tracks h₂ _).bind fun _ s₃ h₃ _ _ => ?_
  refine (takeWhile_tracks _ h₃).bind fun name s₄ h₄ _ _ => ?_
  refine (expect_tracks h₄ _).bind fun _ s₅ h₅ _ _ => (expect_tracks h₅ _).bind fun _ s₆ h₆ _ _ => ?_
  refine (expect_tracks h₆ _).bind fun _ s₇ h₇ _ _ => ?_
  split
  · exact .throw h₇ hs.located
  · split
    · exact .throw h₇ hs.located
    · exact ⟨⟨h₇.located, h₇.remaining⟩, Nat.le_refl _, rfl, _, rfl⟩

theorem comment_tracks (hs : s.At input) : Tracks input s comment fun _ _ => True := by
  refine (peek_tracks hs).bind fun second t ht _ _ => ?_
  split
  · refine (advance_tracks ht).bind fun _ u hu _ _ => ?_
    refine (takeWhile_tracks _ hu).bind fun _ v hv _ _ => ?_
    exact ⟨⟨hv.located, hv.remaining⟩, Nat.le_refl _, trivial⟩
  · split <;> exact .fail ht

theorem skipTrivia_tracks (hs : s.At input) : Tracks input s skipTrivia fun _ _ => True := by
  unfold Tracks
  fun_induction skipTrivia s with
  | case1 s reason hnext => exact ⟨hs, hs.located⟩
  | case2 s hnext => exact ⟨hs, Nat.le_refl _, trivial⟩
  | case3 s b feed hnext hblank ih =>
      have hrest := ih (hs.step hnext)
      have hoffset := offset_step s b feed
      split at hrest
      · obtain ⟨ht, hle, -⟩ := hrest
        exact ⟨ht, by omega, trivial⟩
      · exact hrest
  | case4 s feed e t hnext hblank hcomment =>
      exact (comment_tracks (hs.step hnext)).of_error hcomment
  | case5 s feed u t hnext hblank hcomment ih =>
      obtain ⟨ht, hle, -⟩ := (comment_tracks (hs.step hnext)).of_ok hcomment
      have hrest := ih ht
      have hoffset := offset_step s 0x2f feed
      split at hrest
      · obtain ⟨hu, hle', -⟩ := hrest
        exact ⟨hu, by omega, trivial⟩
      · exact hrest
  | case6 s b feed hnext hblank hslash => exact ⟨hs, Nat.le_refl _, trivial⟩

/-! ## Words -/

end Lexer

structure Word.Stands (input : List UInt8) (w : Word) : Prop where
  located : w.position.Located input
  text : Lexer.wordAt input w.position.offset = Text.toUtf8 w.text
  ne_nil : Text.toUtf8 w.text ≠ []

def Word.stop (w : Word) : Nat :=
  w.position.offset + (Text.toUtf8 w.text).length

theorem Word.offset_le_stop (w : Word) : w.position.offset ≤ w.stop :=
  Nat.le_add_right _ _

def Word.Begins (input : List UInt8) (w : Word) : Prop :=
  w.text = "=" ∨ w.text = ";" ∨ Lexer.Starts input w.position.offset

namespace Lexer

variable {input : List UInt8} {s : Lexer}

open Scan

def Parted (input : List UInt8) (offset : Nat) : Prop :=
  Starts input offset ∨ ∀ b, (input.drop offset).head? = some b → isWordByte b = false

theorem starts_of_prefix {bytes : List UInt8} {offset : Nat} (hbytes : bytes <+: input.drop offset)
    (hne : bytes ≠ []) (hno : ∀ b ∈ bytes, isWordByte b = false) :
    Starts input (offset + bytes.length) := by
  intro b hb
  have htake : input.take (offset + bytes.length) = input.take offset ++ bytes := by
    rw [List.take_add, ← List.prefix_iff_eq_take.mp hbytes]
  rw [htake, List.getLast?_append_of_ne_nil _ hne] at hb
  exact hno b (List.mem_of_getLast? hb)

theorem takeWhile_isWordByte_eq_nil {bytes : List UInt8} : bytes.takeWhile isWordByte = [] ↔
    ∀ b, bytes.head? = some b → isWordByte b = false := by
  cases bytes with
  | nil => simp
  | cons b rest => simp [List.takeWhile_cons]

theorem toUtf8_mark {b : UInt8} (h : isMark b = true) :
    Text.toUtf8 (if some b = some 0x3d then "=" else ";") = [b] := by
  simp only [isMark, Bool.or_eq_true, beq_iff_eq] at h
  rcases h with rfl | rfl <;> decide

theorem nextWord_tracks (hs : s.At input) : Tracks input s nextWord fun w t =>
    s.position.offset ≤ w.position.offset ∧ w.Stands input ∧ t.position.offset = w.stop ∧
      Parted input t.position.offset ∧ (Parted input s.position.offset → w.Begins input) := by
  refine (takeWhile_tracks _ hs).bind fun gap t ht hle hgap => .bind_get ?_
  obtain ⟨hgap, hoffset⟩ := hgap
  refine (peekInside_tracks ht).bind fun first t' _ _ hfirst => ?_
  obtain ⟨rfl, hfirst⟩ := hfirst
  split
  · rename_i hmark
    cases first with
    | none => cases hmark
    | some b =>
        refine (advance_tracks ht).bind fun _ u hu _ hstep => ?_
        replace hmark : isMark b = true := hmark
        have hposition := hstep b hfirst.symm
        obtain ⟨rest, hdrop⟩ := List.head?_eq_some_iff.mp hfirst.symm
        have htext := toUtf8_mark hmark
        have hstop : u.position.offset = t'.position.offset + [b].length := by
          rw [hposition, Position.offset_after]
          rfl
        refine .pure hu ⟨hle, ⟨ht.located, ?_, ?_⟩, ?_, .inl ?_, fun _ => ?_⟩
        · rw [wordAt, hdrop, leadingWord_of_isMark hmark, htext]
        · rw [htext]
          exact List.cons_ne_nil _ _
        · rw [hstop, Word.stop, htext]
        · rw [hstop]
          refine starts_of_prefix ⟨rest, hdrop.symm⟩ (by simp) ?_
          simpa using isWordByte_of_isMark hmark
        · unfold Word.Begins
          split
          · exact .inl rfl
          · exact .inr (.inl rfl)
  · refine (takeWhile_tracks _ ht).bind fun bytes u hu _ hbytes => ?_
    obtain ⟨hbytes, hstop⟩ := hbytes
    refine (peekInside_tracks hu).bind fun _ u' _ _ hpeek => ?_
    obtain ⟨rfl, -⟩ := hpeek
    split
    · exact .fail hu
    · rename_i hne
      rw [List.isEmpty_iff] at hne
      split
      · exact .throw hu ht.located
      · rename_i text htext
        have htext := Text.toUtf8_of_ofUtf8? htext
        refine .pure hu ⟨hle, ⟨ht.located, ?_, ?_⟩, ?_, .inr ?_, fun hparted => .inr (.inr ?_)⟩
        · rw [htext]
          exact leadingWord_of_takeWhile hbytes.symm hne
        · rw [htext]
          exact hne
        · rw [hstop, Word.stop, htext]
        · rw [hstop, ← List.drop_drop]
          apply takeWhile_isWordByte_eq_nil.mp
          exact takeWhile_drop (by rw [← hbytes, List.append_nil])
        · change Starts input t'.position.offset
          by_cases hgapNil : gap = []
          · rw [hgapNil, List.length_nil, Nat.add_zero] at hoffset
            rw [hoffset] at hbytes ⊢
            refine hparted.resolve_right fun hno => hne ?_
            rw [hbytes]
            exact takeWhile_isWordByte_eq_nil.mpr hno
          · rw [hoffset]
            refine starts_of_prefix ?_ hgapNil ?_
            · rw [hgap]
              exact List.takeWhile_prefix _
            · intro b hb
              rw [hgap] at hb
              exact isWordByte_of_isGap (List.mem_takeWhile_imp hb)

end Lexer

end TypeLang
