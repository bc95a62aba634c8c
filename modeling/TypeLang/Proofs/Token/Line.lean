import TypeLang.Proofs.Text.Visible
import TypeLang.Proofs.Token.Grouping

/-!
# Reading a line of words

`Lexer.WritesWords` says which bytes write some words and a semicolon behind them: blanks may stand
anywhere between words, and have to stand between two of them that are no marks. A lexer reads the
words again, whatever stands behind them (`Lexer.wordsFrom_writes`). A line is the way to write them
with single blanks.
-/

namespace TypeLang

/-! ## Words -/

def isPlain (c : Char) : Bool :=
  Text.isVisible c && c != '=' && c != ';'

theorem isPlain_iff {c : Char} :
    isPlain c = true ↔ Text.isVisible c = true ∧ c ≠ '=' ∧ c ≠ ';' := by
  simp [isPlain, and_assoc]

/-- A text that the lexer reads as one word: an equals sign, or plain characters. -/
def IsWord (text : String) : Prop :=
  text = "=" ∨ text ≠ "" ∧ ∀ c ∈ text.toList, isPlain c = true

def separators : List Char := [' ', '\t', '\n', '\r', '=', ';']

structure IsLexeme (text : String) : Prop where
  ne_empty : text ≠ ""
  inside : ∀ c ∈ text.toList, c ∉ separators

theorem IsLexeme.ne_stop {text : String} (h : IsLexeme text) : text ≠ ";" := by
  rintro rfl
  exact h.inside ';' (by decide) (by decide)

theorem IsLexeme.toUtf8_ne_nil {text : String} (h : IsLexeme text) : Text.toUtf8 text ≠ [] := by
  intro hnil
  apply h.ne_empty
  rw [← String.utf8ByteSize_eq_zero_iff, ← Text.length_toUtf8, hnil]
  rfl

theorem IsWord.eq_or_isLexeme {text : String} (h : IsWord text) : text = "=" ∨ IsLexeme text := by
  rcases h with h | ⟨hne, hplain⟩
  · exact .inl h
  · have hseparators : ∀ c ∈ separators, isPlain c = false := by
      simp [separators, isPlain, Text.isVisible]
    refine .inr ⟨hne, fun c hc hmem => ?_⟩
    exact absurd (hplain c hc) (by simp [hseparators c hmem])

namespace Lexer

open Scan

/-! ## Lexers with known bytes ahead -/

def facing (s : Lexer) (bytes : List UInt8) (position : Position) : Lexer :=
  { s with feed := ⟨bytes, [], 1⟩, position }

theorem next_facing_nil (s : Lexer) (p : Position) : (s.facing [] p).feed.next = .ok none :=
  rfl

theorem next_facing_cons (s : Lexer) (b : UInt8) (bytes : List UInt8) (p : Position) :
    (s.facing (b :: bytes) p).feed.next = .ok (some (b, ⟨bytes, [], 1⟩)) :=
  rfl

theorem takeWhileFrom_facing {keep : UInt8 → Bool} {read rest : List UInt8}
    (hread : ∀ b ∈ read, keep b = true) (hrest : ∀ b, rest.head? = some b → keep b = false)
    (taken : List UInt8) (s : Lexer) (p : Position) :
    takeWhileFrom keep taken (s.facing (read ++ rest) p) =
      .ok (taken.reverse ++ read) (s.facing rest (p.afterAll read)) := by
  induction read generalizing taken p with
  | nil =>
      rw [takeWhileFrom_eq]
      cases rest with
      | nil => simp [next_facing_nil, Position.afterAll]
      | cons b rest => simp [next_facing_cons, hrest b rfl, Position.afterAll]
  | cons b read ih =>
      rw [List.cons_append, takeWhileFrom_eq, next_facing_cons]
      simp only [hread b List.mem_cons_self, if_true]
      change takeWhileFrom keep (b :: taken) (s.facing (read ++ rest) (p.after b)) = _
      rw [ih (fun c hc => hread c (List.mem_cons_of_mem b hc)), List.reverse_cons,
        List.append_assoc]
      rfl

theorem takeWhile_facing {keep : UInt8 → Bool} {read : List UInt8} (rest : List UInt8)
    (hread : ∀ b ∈ read, keep b = true) (hrest : ∀ b, rest.head? = some b → keep b = false)
    (s : Lexer) (p : Position) :
    takeWhile keep (s.facing (read ++ rest) p) = .ok read (s.facing rest (p.afterAll read)) :=
  takeWhileFrom_facing hread hrest [] s p

theorem peekInside_facing {b : UInt8} (hb : isLineBreak b = false) (s : Lexer)
    (rest : List UInt8) (p : Position) :
    peekInside (s.facing (b :: rest) p) = .ok (some b) (s.facing (b :: rest) p) := by
  unfold peekInside peek
  rw [next_facing_cons]
  simp only [hb]
  rfl

/-! ## Reading words -/

def EndsWord (rest : List UInt8) : Prop :=
  ∃ b tail, rest = b :: tail ∧ (isGap b = true ∨ isMark b = true)

theorem EndsWord.not_word {rest : List UInt8} (h : EndsWord rest) :
    ∀ b, rest.head? = some b → isWordByte b = false := by
  obtain ⟨b, tail, rfl, hb⟩ := h
  intro c hc
  cases hc
  rcases hb with hb | hb <;> simp [isWordByte, hb]

theorem EndsWord.not_lineBreak {b : UInt8} (h : isGap b = true ∨ isMark b = true) :
    isLineBreak b = false := by
  simp only [isGap, isMark, Bool.or_eq_true, beq_iff_eq] at h
  rcases h with (rfl | rfl) | (rfl | rfl) <;> rfl

theorem not_gap_of_isWordByte {b : UInt8} (h : isWordByte b = true) : isGap b = false := by
  simp only [isWordByte, Bool.and_eq_true, Bool.not_eq_true'] at h
  exact h.1.1

theorem not_blank_of_isWordByte {b : UInt8} (h : isWordByte b = true) :
    (isGap b || isLineBreak b) = false := by
  simp only [isWordByte, Bool.and_eq_true, Bool.not_eq_true'] at h
  rw [h.1.1, h.2, Bool.or_self]

theorem nextWord_facing_mark {b : UInt8} (hb : isMark b = true) (gap rest : List UInt8)
    (hgap : ∀ c ∈ gap, isGap c = true) (s : Lexer) (p : Position) :
    nextWord (s.facing (gap ++ b :: rest) p) =
      .ok ⟨if b = 0x3d then "=" else ";", p.afterAll gap⟩
        (s.facing rest ((p.afterAll gap).after b)) := by
  have hnot : isGap b = false := by
    simp only [isMark, Bool.or_eq_true, beq_iff_eq] at hb
    rcases hb with rfl | rfl <;> rfl
  have hread := takeWhile_facing (b :: rest) hgap (by
    intro c hc
    cases hc
    exact hnot) s p
  rw [nextWord, Scan.bind_of_eq_ok hread]
  change (peekInside >>= _) (s.facing (b :: rest) (p.afterAll gap)) = _
  rw [Scan.bind_of_eq_ok (peekInside_facing (EndsWord.not_lineBreak (.inr hb)) ..)]
  simp only [Option.any_some, hb, if_true]
  change EStateM.Result.ok (Word.mk (if some b = some 0x3d then "=" else ";") _) _ = _
  simp only [Option.some.injEq]
  rfl

theorem nextWord_facing {bytes gap rest : List UInt8} {text : String}
    (htext : Text.ofUtf8? bytes = some text) (hne : bytes ≠ [])
    (hword : ∀ b ∈ bytes, isWordByte b = true) (hgap : ∀ c ∈ gap, isGap c = true)
    (hrest : EndsWord rest) (s : Lexer) (p : Position) :
    nextWord (s.facing (gap ++ (bytes ++ rest)) p) =
      .ok ⟨text, p.afterAll gap⟩ (s.facing rest ((p.afterAll gap).afterAll bytes)) := by
  obtain ⟨b, more, rfl⟩ := List.exists_cons_of_ne_nil hne
  have hb := hword b List.mem_cons_self
  have hread := takeWhile_facing (b :: more ++ rest) hgap (by
    intro c hc
    cases hc
    exact not_gap_of_isWordByte hb) s p
  have hread' := takeWhile_facing rest hword hrest.not_word s (p.afterAll gap)
  obtain ⟨stop, tail, rfl, hstop⟩ := hrest
  simp only [isWordByte, Bool.and_eq_true, Bool.not_eq_true'] at hb
  rw [nextWord, Scan.bind_of_eq_ok hread]
  change (peekInside >>= _) (s.facing (b :: (more ++ stop :: tail)) (p.afterAll gap)) = _
  rw [Scan.bind_of_eq_ok (peekInside_facing hb.2 ..)]
  simp only [Option.any_some, hb.1.2, Bool.false_eq_true, if_false]
  rw [← List.cons_append, Scan.bind_of_eq_ok hread',
    Scan.bind_of_eq_ok (peekInside_facing (EndsWord.not_lineBreak hstop) ..)]
  simp only [List.isEmpty_cons, Bool.false_eq_true, if_false, htext]
  rfl

theorem isWordByte_of_mem_toUtf8 {text : String} (h : IsLexeme text) :
    ∀ b ∈ Text.toUtf8 text, isWordByte b = true := by
  intro b hb
  have hbytes : b ∉ [0x20, 0x09, 0x0a, 0x0d, 0x3d, 0x3b] :=
    Text.notMem_of_mem_toUtf8 (by simp [separators]) h.inside b hb
  simp only [List.mem_cons, List.not_mem_nil, or_false, not_or] at hbytes
  simp [isWordByte, isGap, isMark, isLineBreak, hbytes]

/-- The first byte of a word, by which it is told from a section mark and a comment. -/
theorem exists_first_byte {text : String} (h : IsLexeme text)
    (hhead : ∀ c, text.toList.head? = some c → c ≠ '-' ∧ c ≠ '/') :
    ∃ b tail, Text.toUtf8 text = b :: tail ∧ isWordByte b = true ∧ b ≠ 0x2d ∧ b ≠ 0x2f := by
  obtain ⟨b, tail, hbytes⟩ := List.exists_cons_of_ne_nil h.toUtf8_ne_nil
  have hword : isWordByte b = true := by
    apply isWordByte_of_mem_toUtf8 h
    rw [hbytes]
    exact List.mem_cons_self
  have hfirst (mark : Char) (hlow : mark.toNat < 0x80) (hb : b.toNat = mark.toNat) :
      text.toList.head? = some mark := by
    obtain ⟨c, cs, hcs, hcode⟩ := Text.toNat_eq_of_toUtf8_eq_cons hbytes (hb ▸ hlow)
    obtain rfl : c = mark := Char.toNat_inj.mp (hcode.trans hb)
    rw [hcs]
    rfl
  refine ⟨b, tail, hbytes, hword, ?_, ?_⟩
  · rintro rfl
    exact (hhead '-' (hfirst '-' (by decide) rfl)).1 rfl
  · rintro rfl
    exact (hhead '/' (hfirst '/' (by decide) rfl)).2 rfl

theorem nextWord_facing_lexeme {text : String} (h : IsLexeme text) (gap : List UInt8)
    {rest : List UInt8} (hgap : ∀ c ∈ gap, isGap c = true) (hrest : EndsWord rest) (s : Lexer)
    (p : Position) :
    nextWord (s.facing (gap ++ (Text.toUtf8 text ++ rest)) p) =
      .ok ⟨text, p.afterAll gap⟩
        (s.facing rest ((p.afterAll gap).afterAll (Text.toUtf8 text))) :=
  nextWord_facing (Text.ofUtf8?_toUtf8 text) h.toUtf8_ne_nil (isWordByte_of_mem_toUtf8 h) hgap
    hrest s p

/-- The bytes write the words and a semicolon. A word stands apart from the one in front of it by
blanks, unless one of them is a mark; `apart` tells whether the word in front is none. -/
inductive WritesWords : (apart : Bool) → List String → List UInt8 → Prop
  | stop {apart : Bool} {gap : List UInt8} (blank : ∀ b ∈ gap, isGap b = true) :
      WritesWords apart [] (gap ++ [0x3b])
  | equals {apart : Bool} {gap bytes : List UInt8} {texts : List String}
      (blank : ∀ b ∈ gap, isGap b = true) (later : WritesWords false texts bytes) :
      WritesWords apart ("=" :: texts) (gap ++ 0x3d :: bytes)
  | lexeme {apart : Bool} {gap bytes : List UInt8} {text : String} {texts : List String}
      (lexeme : IsLexeme text) (blank : ∀ b ∈ gap, isGap b = true) (parted : apart → gap ≠ [])
      (later : WritesWords true texts bytes) :
      WritesWords apart (text :: texts) (gap ++ (Text.toUtf8 text ++ bytes))

theorem endsWord_of_gap {gap bytes : List UInt8} {b : UInt8} (hgap : ∀ c ∈ gap, isGap c = true)
    (hb : isGap b = true ∨ isMark b = true) : EndsWord (gap ++ b :: bytes) := by
  cases gap with
  | nil => exact ⟨b, bytes, rfl, hb⟩
  | cons c gap => exact ⟨c, _, rfl, .inl (hgap c List.mem_cons_self)⟩

theorem WritesWords.endsWord {texts : List String} {bytes : List UInt8}
    (h : WritesWords true texts bytes) (rest : List UInt8) : EndsWord (bytes ++ rest) := by
  cases h with
  | stop blank =>
      rw [List.append_assoc]
      exact endsWord_of_gap blank (.inr rfl)
  | equals blank =>
      rw [List.append_assoc]
      exact endsWord_of_gap blank (.inr rfl)
  | lexeme _ blank parted =>
      obtain ⟨b, gap, rfl⟩ := List.exists_cons_of_ne_nil (parted rfl)
      exact ⟨b, _, rfl, .inl (blank b List.mem_cons_self)⟩

theorem wordsFrom_writes {apart : Bool} {texts : List String} {bytes : List UInt8}
    (h : WritesWords apart texts bytes) (before : List Word) (s : Lexer) (rest : List UInt8)
    (p : Position) :
    ∃ words stop p', words.map (·.text) = texts ∧
      wordsFrom before (s.facing (bytes ++ rest) p) =
        .ok ⟨before.reverse ++ words, stop⟩ (s.facing rest p') := by
  induction h generalizing before p with
  | @stop apart gap blank =>
      have hstop := nextWord_facing_mark (b := 0x3b) rfl gap rest blank s p
      refine ⟨[], p.afterAll gap, (p.afterAll gap).after 0x3b, rfl, ?_⟩
      rw [List.append_assoc, List.singleton_append, wordsFrom_eq, hstop]
      simp
  | @equals apart gap bytes texts blank _ ih =>
      have hread := nextWord_facing_mark (b := 0x3d) rfl gap (bytes ++ rest) blank s p
      obtain ⟨words, stop, p', htexts, hrest⟩ :=
        ih (⟨"=", p.afterAll gap⟩ :: before) ((p.afterAll gap).after 0x3d)
      refine ⟨⟨"=", p.afterAll gap⟩ :: words, stop, p', by rw [List.map_cons, htexts], ?_⟩
      rw [List.append_assoc, List.cons_append, wordsFrom_eq, hread]
      simp only [if_true, show ("=" : String) ≠ ";" by decide, if_false]
      rw [hrest, List.reverse_cons, List.append_assoc]
      rfl
  | @lexeme apart gap bytes text texts lexeme blank _ later ih =>
      have hread := nextWord_facing_lexeme lexeme gap blank (later.endsWord rest) s p
      obtain ⟨words, stop, p', htexts, hrest⟩ := ih (⟨text, p.afterAll gap⟩ :: before)
        ((p.afterAll gap).afterAll (Text.toUtf8 text))
      refine ⟨⟨text, p.afterAll gap⟩ :: words, stop, p', by rw [List.map_cons, htexts], ?_⟩
      rw [List.append_assoc, List.append_assoc, wordsFrom_eq, hread]
      simp only [lexeme.ne_stop, if_false]
      rw [hrest, List.reverse_cons, List.append_assoc]
      rfl

theorem statement_writes {texts : List String} {bytes : List UInt8}
    (h : WritesWords false texts bytes) (s : Lexer) (rest : List UInt8) (p : Position) :
    ∃ words stop p', words.map (·.text) = texts ∧
      statement (s.facing (bytes ++ rest) p) = .ok ⟨words, stop⟩ (s.facing rest p') :=
  wordsFrom_writes h [] s rest p

/-! ## Lines -/

def spaced (texts : List String) : List UInt8 :=
  texts.flatMap fun text => 0x20 :: Text.toUtf8 text

theorem writesWords_spaced {apart : Bool} {texts : List String} (h : ∀ text ∈ texts, IsWord text) :
    WritesWords apart texts (spaced texts ++ [0x3b]) := by
  have hgap : ∀ b ∈ ([0x20] : List UInt8), isGap b = true := by simp [isGap]
  induction texts generalizing apart with
  | nil => exact @WritesWords.stop apart [] (by simp)
  | cons text texts ih =>
      have hrest {apart : Bool} : WritesWords apart texts (spaced texts ++ [0x3b]) :=
        ih fun t ht => h t (List.mem_cons_of_mem text ht)
      have hbytes : spaced (text :: texts) ++ [0x3b] =
          [0x20] ++ (Text.toUtf8 text ++ (spaced texts ++ [0x3b])) := by
        simp [spaced]
      rw [hbytes]
      rcases (h text List.mem_cons_self).eq_or_isLexeme with rfl | hlexeme
      · exact .equals hgap hrest
      · exact .lexeme hlexeme hgap (by simp) hrest

theorem toUtf8_intercalate (text : String) (texts : List String) :
    Text.toUtf8 (" ".intercalate (text :: texts)) = Text.toUtf8 text ++ spaced texts := by
  induction texts generalizing text with
  | nil => simp [spaced]
  | cons next texts ih =>
      rw [String.intercalate_cons_cons, Text.toUtf8_append, Text.toUtf8_append, ih,
        List.append_assoc]
      rfl

def line (texts : List String) : String :=
  " ".intercalate texts ++ ";"

theorem toUtf8_line (text : String) (texts : List String) :
    Text.toUtf8 (line (text :: texts)) = Text.toUtf8 text ++ (spaced texts ++ [0x3b]) := by
  rw [line, Text.toUtf8_append, toUtf8_intercalate, List.append_assoc]
  rfl

theorem writesWords_line {text : String} {texts : List String}
    (h : ∀ t ∈ text :: texts, IsWord t) :
    WritesWords false (text :: texts) (Text.toUtf8 (line (text :: texts))) := by
  have hrest {apart : Bool} : WritesWords apart texts (spaced texts ++ [0x3b]) :=
    writesWords_spaced fun t ht => h t (List.mem_cons_of_mem text ht)
  rw [toUtf8_line]
  rcases (h text List.mem_cons_self).eq_or_isLexeme with rfl | hlexeme
  · exact @WritesWords.equals false [] _ _ (by simp) hrest
  · exact @WritesWords.lexeme false [] _ _ _ hlexeme (by simp) (by simp) hrest

/-! ## Between declarations -/

section

variable {s : Lexer}

theorem skipTrivia_facing_blank {b : UInt8} (hb : (isGap b || isLineBreak b) = true) (s : Lexer)
    (rest : List UInt8) (p : Position) :
    skipTrivia (s.facing (b :: rest) p) = skipTrivia (s.facing rest (p.after b)) := by
  rw [skipTrivia_eq, next_facing_cons]
  simp only [hb, if_true]
  rfl

theorem skipTrivia_facing {b : UInt8} (hb : (isGap b || isLineBreak b) = false)
    (hslash : b ≠ 0x2f) (s : Lexer) (rest : List UInt8) (p : Position) :
    skipTrivia (s.facing (b :: rest) p) = .ok () (s.facing (b :: rest) p) := by
  rw [skipTrivia_eq, next_facing_cons]
  simp only [hb, Bool.false_eq_true, if_false, hslash]

theorem nextGroup_facing_statement {b : UInt8} (hblank : (isGap b || isLineBreak b) = false)
    (hdash : b ≠ 0x2d) (hslash : b ≠ 0x2f) {s t : Lexer} {bytes : List UInt8} {p : Position}
    {words : Statement} (h : statement (s.facing (b :: bytes) p) = .ok words t) :
    nextGroup (s.facing (b :: bytes) p) =
      match words.tokens with
      | .error e => .error e t
      | .ok [] => nextGroup t
      | .ok (token :: later) => .ok (some token) { t with pending := later } := by
  rw [nextGroup_eq, skipTrivia_facing hblank hslash]
  simp only [peek, next_facing_cons, hdash, if_false, declaration, Scan.bind_of_eq_ok h]
  cases words.tokens with
  | error e => rfl
  | ok tokens => cases tokens <;> rfl

theorem nextGroup_facing_declaration {texts : List String} {b : UInt8} {bytes : List UInt8}
    (h : WritesWords false texts (b :: bytes)) (hblank : (isGap b || isLineBreak b) = false)
    (hdash : b ≠ 0x2d) (hslash : b ≠ 0x2f) (s : Lexer) (rest : List UInt8) (p : Position) :
    ∃ words stop p', words.map (·.text) = texts ∧
      nextGroup (s.facing (b :: (bytes ++ rest)) p) =
        match Statement.tokens ⟨words, stop⟩ with
        | .error e => .error e (s.facing rest p')
        | .ok [] => nextGroup (s.facing rest p')
        | .ok (token :: later) => .ok (some token) { s.facing rest p' with pending := later } := by
  obtain ⟨words, stop, p', htexts, hstatement⟩ := statement_writes h s rest p
  exact ⟨words, stop, p', htexts, nextGroup_facing_statement hblank hdash hslash hstatement⟩

theorem nextToken_facing_nil (hpending : s.pending = []) (p : Position) :
    nextToken (s.facing [] p) = .ok none (s.facing [] p) := by
  cases hfailed : s.failed with
  | true => exact nextToken_of_failed (s := s.facing [] p) hpending hfailed
  | false =>
      rw [nextToken_of_nextGroup (s := s.facing [] p) hpending hfailed, nextGroup_eq, skipTrivia_eq,
        next_facing_nil]
      rfl

theorem nextToken_facing_lineBreak (hpending : s.pending = []) (hfailed : s.failed = false)
    (rest : List UInt8) (p : Position) :
    nextToken (s.facing (0x0a :: rest) p) = nextToken (s.facing rest (p.after 0x0a)) := by
  rw [nextToken_of_nextGroup (s := s.facing (0x0a :: rest) p) hpending hfailed,
    nextToken_of_nextGroup (s := s.facing rest (p.after 0x0a)) hpending hfailed, nextGroup_eq,
    nextGroup_eq, skipTrivia_facing_blank (by decide)]

end

theorem expect_facing {b : UInt8} (hb : isLineBreak b = false) (s : Lexer) (rest : List UInt8)
    (p : Position) : expect b (s.facing (b :: rest) p) = .ok () (s.facing rest (p.after b)) := by
  rw [expect, Scan.bind_of_eq_ok (peekInside_facing hb ..)]
  simp only [if_true]
  rfl

def markText (category : Category) : String :=
  "---" ++ category.sectionName ++ "---"

theorem toUtf8_markText (category : Category) :
    Text.toUtf8 (markText category) =
      0x2d :: 0x2d :: 0x2d :: (Text.toUtf8 category.sectionName ++ [0x2d, 0x2d, 0x2d]) := by
  cases category <;> decide

theorem sectionName_bytes (category : Category) :
    ∀ b ∈ Text.toUtf8 category.sectionName, (b != 0x2d && !isLineBreak b) = true :=
  List.all_eq_true.mp (by cases category <;> decide)

/-- A section mark is read to its end, whether there is a section of its name or not. -/
theorem sectionMark_facing_name {name : String}
    (hname : ∀ b ∈ Text.toUtf8 name, (b != 0x2d && !isLineBreak b) = true) (s : Lexer)
    (rest : List UInt8) (p : Position) :
    ∃ p', sectionMark (s.facing (0x2d :: 0x2d :: 0x2d ::
        (Text.toUtf8 name ++ 0x2d :: 0x2d :: 0x2d :: rest)) p) =
      match Category.ofSectionName? name with
      | none => .error ⟨.sectionName name, p⟩ (s.facing rest p')
      | some category => .ok ⟨.sectionMark category, p⟩ ({ s with category }.facing rest p') := by
  have hread := fun q => takeWhile_facing (0x2d :: 0x2d :: 0x2d :: rest) hname (by
      intro b hb
      cases hb
      decide) s q
  have hdash := expect_facing (b := 0x2d) (by decide)
  let start := ((p.after 0x2d).after 0x2d).after 0x2d
  let stop := start.afterAll (Text.toUtf8 name)
  refine ⟨((stop.after 0x2d).after 0x2d).after 0x2d, ?_⟩
  rw [sectionMark, Scan.bind_of_eq_ok (x := get) rfl,
    Scan.bind_of_eq_ok (hdash ..), Scan.bind_of_eq_ok (hdash ..), Scan.bind_of_eq_ok (hdash ..),
    Scan.bind_of_eq_ok (hread _), Scan.bind_of_eq_ok (hdash ..), Scan.bind_of_eq_ok (hdash ..),
    Scan.bind_of_eq_ok (hdash ..), Text.ofUtf8?_toUtf8]
  dsimp only
  cases Category.ofSectionName? name <;> rfl

theorem nextGroup_facing_name {name : String}
    (hname : ∀ b ∈ Text.toUtf8 name, (b != 0x2d && !isLineBreak b) = true) (s : Lexer)
    (rest : List UInt8) (p : Position) :
    ∃ p', nextGroup (s.facing (0x2d :: 0x2d :: 0x2d ::
        (Text.toUtf8 name ++ 0x2d :: 0x2d :: 0x2d :: rest)) p) =
      match Category.ofSectionName? name with
      | none => .error ⟨.sectionName name, p⟩ (s.facing rest p')
      | some category =>
        .ok (some ⟨.sectionMark category, p⟩) ({ s with category }.facing rest p') := by
  obtain ⟨p', hmark⟩ := sectionMark_facing_name hname s rest p
  refine ⟨p', ?_⟩
  rw [nextGroup_eq, skipTrivia_facing (by decide) (by decide)]
  simp only [peek, next_facing_cons, if_true]
  change EStateM.map some sectionMark _ = _
  rw [EStateM.map, hmark]
  cases Category.ofSectionName? name <;> rfl

theorem nextToken_facing_mark {s : Lexer} (hpending : s.pending = []) (hfailed : s.failed = false)
    (category : Category) (rest : List UInt8) (p : Position) :
    ∃ p', nextToken (s.facing (Text.toUtf8 (markText category) ++ rest) p) =
      .ok (some ⟨.sectionMark category, p⟩) ({ s with category }.facing rest p') := by
  obtain ⟨p', hgroup⟩ := nextGroup_facing_name (sectionName_bytes category) s rest p
  rw [Category.ofSectionName?_sectionName] at hgroup
  refine ⟨p', ?_⟩
  rw [nextToken_of_nextGroup (s := s.facing _ p) hpending hfailed, toUtf8_markText]
  simp only [List.cons_append, List.append_assoc, List.nil_append]
  rw [hgroup]

end Lexer

end TypeLang
