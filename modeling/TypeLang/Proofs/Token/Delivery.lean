import TypeLang.Proofs.Token.Scan

/-!
# Lexing does not depend on the reads

A byte source may give its bytes in reads of any size, with interruptions in between, and a lexer
may ask for any number of bytes at once. `Lexer.whole` is the lexer with all its bytes in hand, and
`Lexer.nextToken` commutes with it (`nextToken_whole`). So two sources with the same bytes and the
same failure at the end show the same, call by call: tokens, errors, positions, layers and sections
(`observe_ofSource`).
-/

namespace TypeLang

/-! ## Sources -/

namespace Delivery

def ending (source : List Delivery) : List Delivery :=
  ((failure? source).map .failure).toList

def inOneRead (bytes : List UInt8) (failure : Option String) : List Delivery :=
  (if bytes.isEmpty then [] else [.chunk bytes]) ++ (failure.map .failure).toList

theorem bytes_inOneRead (bs : List UInt8) (failure : Option String) :
    bytes (inOneRead bs failure) = bs := by
  cases bs <;> cases failure <;> simp [inOneRead, bytes]

theorem failure?_inOneRead (bs : List UInt8) (failure : Option String) :
    failure? (inOneRead bs failure) = failure := by
  cases bs <;> cases failure <;> simp [inOneRead, failure?]

end Delivery

namespace Feed

def whole (f : Feed) : Feed :=
  ⟨f.remaining, Delivery.ending f.source, 1⟩

theorem next_of_read (capacity : Nat) (source : List Delivery) :
    next ⟨Delivery.bytes source, Delivery.ending source, 1⟩ =
      mapNext whole (read capacity source) := by
  -- On the reads that are left. Only an interruption leads to the next of them.
  induction source with
  | nil => rfl
  | cons delivery rest ih =>
      match delivery with
      | .chunk [] => rfl
      | .chunk (b :: bs) =>
          have hbs := List.take_append_drop (capacity - 1) bs
          cases hleft : bs.drop (capacity - 1) with
          | nil => simp only [read, hleft]; rfl
          | cons d ds =>
              rw [hleft] at hbs
              have hremaining : bs ++ Delivery.bytes rest =
                  bs.take (capacity - 1) ++ Delivery.bytes (.chunk (d :: ds) :: rest) := by
                conv => lhs; rw [← hbs]
                rw [List.append_assoc]
                rfl
              simp only [read, hleft, mapNext, whole, remaining]
              rw [← hremaining]
              rfl
      | .interrupted => exact ih
      | .failure _ => rfl

theorem whole_keepsBytes : KeepsBytes whole := by
  intro f
  obtain ⟨unread, source, capacity⟩ := f
  cases unread with
  | nil => exact next_of_read capacity source
  | cons b rest => rfl

end Feed

/-! ## Having all bytes in hand -/

def Lexer.whole (s : Lexer) : Lexer :=
  { s with feed := s.feed.whole }

theorem Scan.SeesBytes.apply_whole {α : Type} {x : Scan α} (hx : Scan.SeesBytes x) (s : Lexer) :
    x s.whole = Scan.mapLexer Lexer.whole (x s) := by
  have hrefit := hx Feed.whole Feed.whole_keepsBytes s.pending s.failed s
  change x s.whole = _ at hrefit
  rw [hrefit]
  cases h : x s with
  | ok a t =>
      obtain ⟨hpending, hfailed⟩ := hx.frame_ok h
      rw [← hpending, ← hfailed]
      rfl
  | error e t =>
      obtain ⟨hpending, hfailed⟩ := hx.frame_error h
      rw [← hpending, ← hfailed]
      rfl

namespace Lexer

open Scan

theorem nextGroup_whole (s : Lexer) : nextGroup s.whole = mapLexer whole (nextGroup s) := by
  rw [nextGroup_eq, skipTrivia_seesBytes.apply_whole]
  fun_induction nextGroup s with
  | case1 s e t h => rw [h]; rfl
  | case2 s u t h e v hpeek =>
      rw [h]
      simp only [mapLexer, peek_seesBytes.apply_whole t, hpeek]
  | case3 s u t h v hpeek =>
      rw [h]
      simp only [mapLexer, peek_seesBytes.apply_whole t, hpeek]
  | case4 s u t h v hpeek =>
      rw [h]
      simp only [mapLexer, peek_seesBytes.apply_whole t, hpeek, if_true]
      exact (sectionMark_seesBytes.map some).apply_whole t
  | case5 s u t h b v hpeek hmark e w hdeclaration =>
      rw [h]
      simp only [mapLexer, peek_seesBytes.apply_whole t, hpeek, hmark, if_false,
        declaration_seesBytes.apply_whole t, hdeclaration]
  | case6 s u t h b v hpeek hmark w hdeclaration ih =>
      rw [h]
      simp only [mapLexer, peek_seesBytes.apply_whole t, hpeek, hmark, if_false,
        declaration_seesBytes.apply_whole t, hdeclaration]
      rw [nextGroup_eq, skipTrivia_seesBytes.apply_whole]
      exact ih
  | case7 s u t h b v hpeek hmark token rest w hdeclaration =>
      rw [h]
      simp only [mapLexer, peek_seesBytes.apply_whole t, hpeek, hmark, if_false,
        declaration_seesBytes.apply_whole t, hdeclaration]
      rfl

theorem nextToken_whole (s : Lexer) : nextToken s.whole = mapLexer whole (nextToken s) := by
  obtain ⟨feed, position, category, layer, pending, failed⟩ := s
  cases pending with
  | cons token rest => rfl
  | nil =>
      cases failed with
      | true => rfl
      | false =>
          have hgroup := nextGroup_whole ⟨feed, position, category, layer, [], false⟩
          simp only [nextToken, whole, Bool.false_eq_true, if_false] at hgroup ⊢
          rw [hgroup]
          rcases nextGroup ⟨feed, position, category, layer, [], false⟩ with ⟨_, t⟩ | ⟨e, t⟩ <;> rfl

/-! ## What can be seen -/

structure Observation where
  outcome : Except LexError (Option Token)
  position : Position
  layer : Option UInt32
  category : Category

def shows (s : Lexer) (outcome : Except LexError (Option Token)) : Observation :=
  ⟨outcome, s.position, s.layer, s.category⟩

/-- What shows when the next `calls` tokens are asked for, one by one and also behind the end or an
error. -/
def observe : (calls : Nat) → Lexer → List Observation
  | 0, _ => []
  | calls + 1, s =>
    match nextToken s with
    | .ok token t => t.shows (.ok token) :: observe calls t
    | .error e t => t.shows (.error e) :: observe calls t

theorem observe_whole (calls : Nat) (s : Lexer) : s.whole.observe calls = s.observe calls := by
  induction calls generalizing s with
  | zero => rfl
  | succ calls ih =>
      rw [observe, observe, nextToken_whole]
      cases nextToken s with
      | ok token t => exact congrArg (_ :: ·) (ih t)
      | error e t => exact congrArg (_ :: ·) (ih t)

theorem whole_ofSource_congr {source source' : List Delivery} (capacity capacity' : Nat)
    (hbytes : Delivery.bytes source = Delivery.bytes source')
    (hfailure : Delivery.failure? source = Delivery.failure? source') :
    (ofSource source capacity).whole = (ofSource source' capacity').whole := by
  simp only [whole, ofSource, Feed.whole, Feed.remaining, Delivery.ending, hbytes, hfailure]

/-- How the bytes of a source arrive and how many the lexer asks for at once does not show: it is as
if a single read gave them all, with the failure of the source behind them, if it has one. -/
theorem observe_ofSource (source : List Delivery) (capacity calls : Nat) :
    (ofSource source capacity).observe calls =
      (ofSource (Delivery.inOneRead (Delivery.bytes source) (Delivery.failure? source))
        (Delivery.bytes source).length).observe calls := by
  have hwhole := whole_ofSource_congr capacity (Delivery.bytes source).length
    (Delivery.bytes_inOneRead (Delivery.bytes source) (Delivery.failure? source)).symm
    (Delivery.failure?_inOneRead (Delivery.bytes source) (Delivery.failure? source)).symm
  calc
    _ = (ofSource source capacity).whole.observe calls := (observe_whole calls _).symm
    _ = _ := by rw [hwhole]
    _ = _ := observe_whole calls _

end Lexer

end TypeLang
