import TypeLang.Token.Feed
import TypeLang.Token.Statement
import TypeLang.Text.Blank

/-!
# Lexer

A lexer pulls bytes from a feed and yields the tokens of a schema text, one per call of
`Lexer.nextToken`. It never holds more than the tokens of the declaration being read. After an error
it yields nothing more.

Between declarations stand blanks, line breaks, `//` comments and section marks such as
`---functions---`. A comment `// LAYER n` announces the layer of the schema. A declaration stands on
one line.
-/

namespace TypeLang

structure Lexer where
  feed : Feed
  /-- The position of the next byte. -/
  position : Position
  /-- The category of the section being read. -/
  category : Category
  /-- The layer announced so far. -/
  layer : Option UInt32
  /-- Tokens of the declaration read last that were not yielded yet. -/
  pending : List Token
  failed : Bool
  deriving Repr

abbrev Scan := EStateM LexError Lexer

theorem Scan.bind_eq_ok {α β : Type} {x : Scan α} {f : α → Scan β} {s t : Lexer} {b : β} :
    (x >>= f) s = .ok b t ↔ ∃ a u, x s = .ok a u ∧ f a u = .ok b t := by
  simp only [bind, EStateM.bind]
  cases x s with
  | ok a u => simp only [EStateM.Result.ok.injEq]; exact ⟨fun h => ⟨a, u, ⟨rfl, rfl⟩, h⟩,
      fun ⟨_, _, ⟨ha, hu⟩, h⟩ => ha ▸ hu ▸ h⟩
  | error => simp

theorem Scan.pure_eq_ok {α : Type} {a b : α} {s t : Lexer} :
    (pure a : Scan α) s = .ok b t ↔ a = b ∧ s = t := by
  simp [pure, EStateM.pure]

theorem Scan.get_eq_ok {s t u : Lexer} : (get : Scan Lexer) s = .ok t u ↔ s = t ∧ s = u := by
  change EStateM.Result.ok s s = .ok t u ↔ _
  rw [EStateM.Result.ok.injEq]

theorem Scan.modify_eq_ok {f : Lexer → Lexer} {s t : Lexer} {u : Unit} :
    (modify f : Scan Unit) s = .ok u t ↔ f s = t := by
  change EStateM.Result.ok () (f s) = .ok u t ↔ _
  simp

theorem Scan.throw_ne_ok {α : Type} {e : LexError} {a : α} {s t : Lexer} :
    (throw e : Scan α) s ≠ .ok a t := by
  change EStateM.Result.error e s ≠ .ok a t
  simp

namespace Lexer

def ofSource (source : List Delivery) (capacity : Nat := Feed.defaultCapacity) : Lexer :=
  { feed := ⟨[], source, capacity⟩, position := .start, category := .constructor, layer := none,
    pending := [], failed := false }

/-- A lexer at the start of a text that one read gives. -/
def ofBytes (bytes : List UInt8) : Lexer :=
  ofSource [.chunk bytes]

def remaining (s : Lexer) : List UInt8 :=
  s.feed.remaining

def step (s : Lexer) (b : UInt8) (feed : Feed) : Lexer :=
  { s with feed := feed, position := s.position.after b }

/-! ## Bytes -/

def isLineBreak (b : UInt8) : Bool := b == 0x0a || b == 0x0d

def isGap (b : UInt8) : Bool := b == 0x20 || b == 0x09

/-- `=` and `;` end a word and form one of their own. -/
def isMark (b : UInt8) : Bool := b == 0x3d || b == 0x3b

def isWordByte (b : UInt8) : Bool := !isGap b && !isMark b && !isLineBreak b

def peek : Scan (Option UInt8) := fun s =>
  match s.feed.next with
  | .error reason => .error ⟨.io reason, s.position⟩ s
  | .ok none => .ok none s
  | .ok (some (b, _)) => .ok (some b) s

/-- The next byte inside a declaration, where a line break is an error. -/
def peekInside : Scan (Option UInt8) := fun s =>
  match peek s with
  | .ok (some b) s => if isLineBreak b then .error ⟨.newline, s.position⟩ s else .ok (some b) s
  | result => result

/-- Reads on past the next byte, if there is one. -/
def advance : Scan Unit := fun s =>
  match s.feed.next with
  | .ok (some (b, feed)) => .ok () (s.step b feed)
  | _ => .ok () s

def fail (fault : LexFault) : Scan α := fun s =>
  .error ⟨fault, s.position⟩ s

/-- Reads on past the byte `b`, and past nothing else. -/
def expect (b : UInt8) : Scan Unit := do
  match ← peekInside with
  | some found => if found = b then advance else fail (.character found)
  | none => fail .endOfInput

/-- Reads the bytes that satisfy `keep`, behind `taken`, which holds the last byte first. -/
def takeWhileFrom (keep : UInt8 → Bool) (taken : List UInt8) (s : Lexer) :
    EStateM.Result LexError Lexer (List UInt8) :=
  match _h : s.feed.next with
  | .error reason => .error ⟨.io reason, s.position⟩ s
  | .ok none => .ok taken.reverse s
  | .ok (some (b, feed)) =>
    if keep b then takeWhileFrom keep (b :: taken) (s.step b feed) else .ok taken.reverse s
termination_by s.remaining.length
decreasing_by simp [remaining, step, Feed.next_eq_ok_some _h]

/-- Reads the bytes that satisfy `keep` up to the first that does not. -/
def takeWhile (keep : UInt8 → Bool) : Scan (List UInt8) :=
  takeWhileFrom keep []

theorem takeWhileFrom_eq_ok {keep : UInt8 → Bool} {taken bytes : List UInt8} {s t : Lexer}
    (h : takeWhileFrom keep taken s = .ok bytes t) :
    ∃ read, bytes = taken.reverse ++ read ∧ s.remaining = read ++ t.remaining := by
  fun_induction takeWhileFrom keep taken s with
  | case1 => simp at h
  | case2 =>
    simp only [EStateM.Result.ok.injEq] at h
    exact ⟨[], by simp [h.1], by simp [h.2]⟩
  | case3 taken s b feed hnext _ ih =>
    obtain ⟨read, hbytes, hread⟩ := ih h
    refine ⟨b :: read, by simp [hbytes], ?_⟩
    simp only [remaining, step] at hread ⊢
    simp [Feed.next_eq_ok_some hnext, hread]
  | case4 =>
    simp only [EStateM.Result.ok.injEq] at h
    exact ⟨[], by simp [h.1], by simp [h.2]⟩

theorem takeWhile_eq_ok {keep : UInt8 → Bool} {bytes : List UInt8} {s t : Lexer}
    (h : takeWhile keep s = .ok bytes t) : s.remaining = bytes ++ t.remaining := by
  obtain ⟨read, rfl, hread⟩ := takeWhileFrom_eq_ok h
  simpa using hread

/-! ## Sections -/

def sectionMark : Scan Token := do
  let position := (← get).position
  expect 0x2d
  expect 0x2d
  expect 0x2d
  let name ← takeWhile fun b => b != 0x2d && !isLineBreak b
  expect 0x2d
  expect 0x2d
  expect 0x2d
  match Text.ofUtf8? name with
  | none => throw ⟨.invalidUtf8, position⟩
  | some name =>
    match Category.ofSectionName? name with
    | none => throw ⟨.sectionName name, position⟩
    | some category => do
      modify fun s => { s with category := category }
      return ⟨.sectionMark category, position⟩

/-! ## Declarations -/

/-- Reads the next word of a declaration; `;` is a word here. -/
def nextWord : Scan Word := do
  let _ ← takeWhile isGap
  let position := (← get).position
  let first ← peekInside
  if first.any isMark then
    advance
    return ⟨if first = some 0x3d then "=" else ";", position⟩
  else
    let bytes ← takeWhile isWordByte
    let _ ← peekInside
    if bytes.isEmpty then fail .endOfInput
    else
      match Text.ofUtf8? bytes with
      | none => throw ⟨.invalidUtf8, position⟩
      | some text => return ⟨text, position⟩

theorem peekInside_eq_ok {s t : Lexer} {b : Option UInt8} (h : peekInside s = .ok b t) :
    t = s ∧ ∀ c, b = some c → ∃ feed, s.feed.next = .ok (some (c, feed)) := by
  unfold peekInside peek at h
  cases hnext : s.feed.next with
  | error reason => simp [hnext] at h
  | ok found =>
    cases found with
    | none =>
      simp [hnext] at h
      simp [← h.1, h.2]
    | some found =>
      simp only [hnext] at h
      split at h
      · simp at h
      · simp only [EStateM.Result.ok.injEq] at h
        refine ⟨h.2.symm, fun c hc => ⟨found.2, ?_⟩⟩
        rw [← Option.some.inj (h.1.trans hc)]

theorem length_remaining_advance {s t : Lexer} {c : UInt8} {feed : Feed} {u : Unit}
    (hnext : s.feed.next = .ok (some (c, feed))) (h : advance s = .ok u t) :
    t.remaining.length < s.remaining.length := by
  simp only [advance, hnext, EStateM.Result.ok.injEq] at h
  simp [← h.2, remaining, step, Feed.next_eq_ok_some hnext]

theorem length_remaining_nextWord {s t : Lexer} {w : Word} (h : nextWord s = .ok w t) :
    t.remaining.length < s.remaining.length := by
  simp only [nextWord, Scan.bind_eq_ok] at h
  obtain ⟨gaps, s₁, hgaps, here, s₂, hget, first, s₃, hfirst, h⟩ := h
  have h₁ := takeWhile_eq_ok hgaps
  have h₂ : s₂ = s₁ := (Scan.get_eq_ok.mp hget).2.symm
  obtain ⟨h₃, hsome⟩ := peekInside_eq_ok hfirst
  subst h₂ h₃
  rw [h₁, List.length_append]
  split at h
  · simp only [Scan.bind_eq_ok, Scan.pure_eq_ok] at h
    obtain ⟨_, s₄, hadvance, _, rfl⟩ := h
    cases first with
    | none => simp at *
    | some c =>
      obtain ⟨feed, hnext⟩ := hsome c rfl
      have := length_remaining_advance hnext hadvance
      omega
  · simp only [Scan.bind_eq_ok] at h
    obtain ⟨bytes, s₄, hbytes, _, s₅, hpeek, h⟩ := h
    have h₄ := takeWhile_eq_ok hbytes
    obtain ⟨h₅, -⟩ := peekInside_eq_ok hpeek
    subst h₅
    split at h
    · simp [fail] at h
    · rename_i hne
      have hpos : 0 < bytes.length := by
        simpa [List.length_pos_iff] using hne
      cases htext : Text.ofUtf8? bytes with
      | none => simp [htext, Scan.throw_ne_ok] at h
      | some text =>
        simp only [htext, Scan.pure_eq_ok] at h
        rw [h₄, List.length_append, ← h.2]
        omega

/-- Reads words up to a `;`, behind `words`, which holds the last word first. -/
def wordsFrom (words : List Word) (s : Lexer) : EStateM.Result LexError Lexer Statement :=
  match _h : nextWord s with
  | .error e t => .error e t
  | .ok w t =>
    if w.text = ";" then .ok ⟨words.reverse, w.position⟩ t else wordsFrom (w :: words) t
termination_by s.remaining.length
decreasing_by exact length_remaining_nextWord _h

/-- Reads the words of a declaration and the `;` behind them. -/
def statement : Scan Statement :=
  wordsFrom []

theorem length_remaining_wordsFrom {words : List Word} {s t : Lexer} {w : Statement}
    (h : wordsFrom words s = .ok w t) : t.remaining.length < s.remaining.length := by
  fun_induction wordsFrom words s with
  | case1 => simp at h
  | case2 words s w' t' hword _ =>
    simp only [EStateM.Result.ok.injEq] at h
    exact h.2 ▸ length_remaining_nextWord hword
  | case3 words s w' t' hword _ ih =>
    exact Nat.lt_trans (ih h) (length_remaining_nextWord hword)

/-! ## Between declarations -/

/-- The layer that the text of a comment, which follows its slashes, announces. -/
def announcedLayer? (comment : List UInt8) : Option UInt32 := do
  let text ← Text.ofUtf8? comment
  let rest ← Text.dropHead? "LAYER".toList (Text.trimChars text.toList)
  Text.uint32? 10 (Text.trimChars rest)

/-- Reads a comment behind its first slash up to its line break, which is left unread. -/
def comment : Scan Unit := do
  let second ← peek
  if second = some 0x2f then
    advance
    let text ← takeWhile (· != 0x0a)
    modify fun s => { s with layer := (announcedLayer? text).or s.layer }
  else
    match second with
    | some b => fail (.character b)
    | none => fail .endOfInput

theorem peek_eq_ok {s t : Lexer} {b : Option UInt8} (h : peek s = .ok b t) : t = s := by
  unfold peek at h
  split at h <;> simp_all

theorem length_remaining_advance_le {s t : Lexer} {u : Unit} (h : advance s = .ok u t) :
    t.remaining.length ≤ s.remaining.length := by
  unfold advance at h
  split at h
  · rename_i hnext
    exact Nat.le_of_lt (length_remaining_advance (u := u) hnext (by simpa [advance, hnext] using h))
  · simp only [EStateM.Result.ok.injEq] at h
    simp [h.2]

theorem length_remaining_comment_le {s t : Lexer} {u : Unit} (h : comment s = .ok u t) :
    t.remaining.length ≤ s.remaining.length := by
  simp only [comment, Scan.bind_eq_ok] at h
  obtain ⟨second, s₁, hpeek, h⟩ := h
  obtain rfl := peek_eq_ok hpeek
  split at h
  · simp only [Scan.bind_eq_ok] at h
    obtain ⟨_, s₂, hadvance, text, s₃, htext, h⟩ := h
    have h₁ := length_remaining_advance_le hadvance
    have h₂ := takeWhile_eq_ok htext
    rw [h₂, List.length_append] at h₁
    rw [← Scan.modify_eq_ok.mp h]
    exact Nat.le_trans (Nat.le_add_left ..) h₁
  · cases second <;> simp [fail] at h

def skipTrivia (s : Lexer) : EStateM.Result LexError Lexer Unit :=
  match _h : s.feed.next with
  | .error reason => .error ⟨.io reason, s.position⟩ s
  | .ok none => .ok () s
  | .ok (some (b, feed)) =>
    if isGap b || isLineBreak b then skipTrivia (s.step b feed)
    else if b = 0x2f then
      match _hc : comment (s.step b feed) with
      | .error e t => .error e t
      | .ok _ t => skipTrivia t
    else .ok () s
termination_by s.remaining.length
decreasing_by
  · simp [remaining, step, Feed.next_eq_ok_some _h]
  · have := length_remaining_comment_le _hc
    simp only [remaining, step] at this
    simp only [remaining, Feed.next_eq_ok_some _h, List.length_cons]
    omega

theorem length_remaining_skipTrivia_le {s t : Lexer} {u : Unit} (h : skipTrivia s = .ok u t) :
    t.remaining.length ≤ s.remaining.length := by
  fun_induction skipTrivia s with
  | case1 => simp at h
  | case2 => simp only [EStateM.Result.ok.injEq] at h; simp [h.2]
  | case3 s b feed hnext _ ih =>
    have := ih h
    simp only [remaining, step] at this
    simp only [remaining, Feed.next_eq_ok_some hnext, List.length_cons]
    omega
  | case4 => simp at h
  | case5 s feed _ t' hnext _ hcomment ih =>
    have h₁ := ih h
    have h₂ := length_remaining_comment_le hcomment
    simp only [remaining, step] at h₁ h₂
    simp only [remaining, Feed.next_eq_ok_some hnext, List.length_cons]
    omega
  | case6 => simp only [EStateM.Result.ok.injEq] at h; simp [h.2]

/-! ## Tokens -/

def declaration : Scan (List Token) := do
  let words ← statement
  match words.tokens with
  | .error e => throw e
  | .ok tokens => return tokens

theorem length_remaining_declaration {s t : Lexer} {tokens : List Token}
    (h : declaration s = .ok tokens t) : t.remaining.length < s.remaining.length := by
  simp only [declaration, Scan.bind_eq_ok] at h
  obtain ⟨words, u, hwords, h⟩ := h
  have := length_remaining_wordsFrom hwords
  cases htokens : words.tokens with
  | error => simp [htokens, Scan.throw_ne_ok] at h
  | ok tokens =>
    simp only [htokens, Scan.pure_eq_ok] at h
    exact h.2 ▸ this

/-- Reads up to the next section mark or the next declaration that has tokens, and yields the first
of these. -/
def nextGroup (s : Lexer) : EStateM.Result LexError Lexer (Option Token) :=
  match _h : skipTrivia s with
  | .error e t => .error e t
  | .ok _ t =>
    match peek t with
    | .error e t => .error e t
    | .ok none t => .ok none t
    | .ok (some b) _ =>
      if b = 0x2d then (some <$> sectionMark) t
      else
        match _hd : declaration t with
        | .error e u => .error e u
        | .ok [] u => nextGroup u
        | .ok (token :: rest) u => .ok (some token) { u with pending := rest }
termination_by s.remaining.length
decreasing_by
  exact Nat.lt_of_lt_of_le (length_remaining_declaration _hd) (length_remaining_skipTrivia_le _h)

/-- The next token; `none` at the end of the input and after an error. -/
def nextToken : Scan (Option Token) := fun s =>
  match s.pending with
  | token :: rest => .ok (some token) { s with pending := rest }
  | [] =>
    if s.failed then .ok none s
    else
      match nextGroup s with
      | .error e t => .error e { t with failed := true }
      | result => result

/-! ## Progress -/

theorem length_remaining_expect {s t : Lexer} {b : UInt8} {u : Unit} (h : expect b s = .ok u t) :
    t.remaining.length < s.remaining.length := by
  simp only [expect, Scan.bind_eq_ok] at h
  obtain ⟨found, s₁, hpeek, h⟩ := h
  obtain ⟨rfl, hsome⟩ := peekInside_eq_ok hpeek
  cases found with
  | none => simp [fail] at h
  | some c =>
    simp only at h
    split at h
    · obtain ⟨feed, hnext⟩ := hsome c rfl
      exact length_remaining_advance hnext h
    · simp [fail] at h

theorem length_remaining_sectionMark {s t : Lexer} {token : Token}
    (h : sectionMark s = .ok token t) : t.remaining.length < s.remaining.length := by
  simp only [sectionMark, Scan.bind_eq_ok] at h
  obtain ⟨here, s₀, hget, _, s₁, h₁, _, s₂, h₂, _, s₃, h₃, name, s₄, hname, _, s₅, h₅, _, s₆, h₆,
    _, s₇, h₇, h⟩ := h
  have h₀ : s₀ = s := (Scan.get_eq_ok.mp hget).2.symm
  have h₈ : t.remaining = s₇.remaining := by
    cases htext : Text.ofUtf8? name with
    | none => simp [htext, Scan.throw_ne_ok] at h
    | some text =>
      cases hcategory : Category.ofSectionName? text with
      | none => simp [htext, hcategory, Scan.throw_ne_ok] at h
      | some category =>
        simp only [htext, hcategory, Scan.bind_eq_ok, Scan.pure_eq_ok] at h
        obtain ⟨_, u, hu, _, rfl⟩ := h
        rw [← Scan.modify_eq_ok.mp hu]
        rfl
  have := length_remaining_expect h₁
  have := length_remaining_expect h₂
  have := length_remaining_expect h₃
  have := length_remaining_expect h₅
  have := length_remaining_expect h₆
  have := length_remaining_expect h₇
  rw [takeWhile_eq_ok hname, List.length_append] at *
  rw [h₈, ← h₀]
  omega

theorem length_remaining_nextGroup {s t : Lexer} {token : Token}
    (h : nextGroup s = .ok (some token) t) : t.remaining.length < s.remaining.length := by
  fun_induction nextGroup s with
  | case1 => simp at h
  | case2 => simp at h
  | case3 => simp at h
  | case4 s _ u htrivia v hpeek =>
    have h₁ := length_remaining_skipTrivia_le htrivia
    have h₂ : ∃ token' v, sectionMark u = .ok token' v ∧ v = t := by
      simp only [Functor.map, EStateM.map] at h
      split at h
      · rename_i token' v hmark
        simp only [EStateM.Result.ok.injEq] at h
        exact ⟨token', v, hmark, h.2⟩
      · simp at h
    obtain ⟨token', _, hmark, rfl⟩ := h₂
    exact Nat.lt_of_lt_of_le (length_remaining_sectionMark hmark) h₁
  | case5 => simp at h
  | case6 s _ u htrivia b v hpeek _ w hdeclaration ih =>
    have h₁ := length_remaining_skipTrivia_le htrivia
    have h₂ := length_remaining_declaration hdeclaration
    exact Nat.lt_trans (ih h) (Nat.lt_of_lt_of_le h₂ h₁)
  | case7 s _ u htrivia b v hpeek _ token' rest w hdeclaration =>
    have h₁ := length_remaining_skipTrivia_le htrivia
    have h₂ := length_remaining_declaration hdeclaration
    simp only [EStateM.Result.ok.injEq] at h
    rw [← h.2]
    exact Nat.lt_of_lt_of_le h₂ h₁

/-- Each token takes a byte from the feed or a token from the pending ones. -/
theorem nextToken_progress {s t : Lexer} {token : Token} (h : nextToken s = .ok (some token) t) :
    t.remaining.length < s.remaining.length ∨
      t.remaining.length = s.remaining.length ∧ t.pending.length < s.pending.length := by
  unfold nextToken at h
  split at h
  · rename_i first rest hpending
    simp only [EStateM.Result.ok.injEq] at h
    refine .inr ⟨by simp [← h.2, remaining], by simp [← h.2, hpending]⟩
  · split at h
    · simp at h
    · split at h
      · simp at h
      · exact .inl (length_remaining_nextGroup h)

end Lexer

end TypeLang
