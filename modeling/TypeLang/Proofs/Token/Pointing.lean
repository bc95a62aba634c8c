import TypeLang.Proofs.Text.Visible
import TypeLang.Proofs.Token.Grouping
import TypeLang.Proofs.Token.Location
import TypeLang.TypeExpr.Parser

/-!
# Where tokens point

Every position that a lexer shows is that of a byte of its input or of the end, with the line and the
column that belong to it. Names and types point at their own text, a variable at the block that
declares it, an identifier that was written as a literal at the literal and a result type at its
first word. No token points in front of an earlier one (`Lexer.observe_points`).
-/

namespace TypeLang

open Lexer (wordAt Starts Parted)

/-! ## Words in a row -/

namespace Word

variable {input : List UInt8} {w : Word}

theorem Stands.located_skip (h : w.Stands input) {front back : List UInt8}
    (htext : Text.toUtf8 w.text = front ++ back) :
    (w.position.skip front.length).Located input := by
  have hfront : front <+: wordAt input w.position.offset := ⟨back, by rw [h.text, htext]⟩
  have hline : 0x0a ∉ front := fun hmem =>
    Lexer.lineFeed_notMem_leadingWord _ (hfront.subset hmem)
  rw [← Position.afterAll_eq_skip hline]
  refine h.located.afterAll (hfront.trans ?_)
  exact Lexer.leadingWord_prefix _

theorem length_toUtf8_of_toList_eq {a b : List Char} {c : Char} (hc : Text.isVisible c = true)
    (htext : w.text.toList = a ++ c :: b) :
    (Text.toUtf8 w.text).length = byteLength a + 1 + (Text.toUtf8 (String.ofList b)).length := by
  rw [Text.toUtf8_of_toList_eq hc htext, List.length_append, List.length_cons, Text.length_toUtf8,
    byteLength]
  omega

theorem Stands.behind (h : w.Stands input) {a b : List Char} {c : Char}
    (hc : Text.isVisible c = true) (htext : w.text.toList = a ++ c :: b) :
    (w.position.skip (byteLength a + 1)).Located input ∧
      (b ≠ [] → wordAt input (w.position.offset + (byteLength a + 1)) =
        Text.toUtf8 (String.ofList b)) := by
  have hbytes : Text.toUtf8 w.text =
      (Text.toUtf8 (String.ofList a) ++ [UInt8.ofNat c.toNat]) ++ Text.toUtf8 (String.ofList b) := by
    rw [Text.toUtf8_of_toList_eq hc htext, List.append_assoc]
    rfl
  have hlength : (Text.toUtf8 (String.ofList a) ++ [UInt8.ofNat c.toNat]).length =
      byteLength a + 1 := by
    rw [List.length_append, Text.length_toUtf8]
    rfl
  rw [← hlength]
  refine ⟨h.located_skip hbytes, fun hb => ?_⟩
  refine Lexer.wordAt_append (h.text.trans hbytes) (by simp) fun hnil => hb ?_
  have hsize := congrArg List.length hnil
  rw [Text.length_toUtf8, List.length_nil, String.utf8ByteSize_eq_zero_iff] at hsize
  rw [← String.toList_ofList (l := b), hsize]
  rfl

/-- Words that stand one behind the other from `lower` on, up to the `;` at `stop`. -/
inductive InRow (input : List UInt8) : Nat → List Word → Position → Prop
  | nil {lower : Nat} {stop : Position} (hle : lower ≤ stop.offset) (hstop : stop.Located input) :
      InRow input lower [] stop
  | cons {lower : Nat} {w : Word} {words : List Word} {stop : Position}
      (hle : lower ≤ w.position.offset) (hstands : w.Stands input) (hparted : Parted input w.stop)
      (hbegins : Parted input lower → w.text = "=" ∨ Starts input w.position.offset)
      (rest : InRow input w.stop words stop) : InRow input lower (w :: words) stop

namespace InRow

variable {lower : Nat} {words : List Word} {stop : Position}

theorem stop_located (h : InRow input lower words stop) : stop.Located input := by
  induction h with
  | nil hle hstop => exact hstop
  | cons hle hstands hparted hbegins rest ih => exact ih

theorem le (h : InRow input lower words stop) : lower ≤ stop.offset := by
  induction h with
  | nil hle hstop => exact hle
  | @cons lower w words stop hle hstands hparted hbegins rest ih =>
      have hstop := w.offset_le_stop
      omega

theorem stands (h : InRow input lower words stop) : ∀ w ∈ words, w.Stands input := by
  induction h with
  | nil => exact List.forall_mem_nil _
  | cons hle hstands hparted hbegins rest ih => exact List.forall_mem_cons.mpr ⟨hstands, ih⟩

theorem tail (h : InRow input lower (w :: words) stop) :
    lower ≤ w.stop ∧ Parted input w.stop ∧ InRow input w.stop words stop := by
  cases h with
  | cons hle hstands hparted hbegins rest =>
      exact ⟨Nat.le_trans hle w.offset_le_stop, hparted, rest⟩

theorem dropWhile (h : InRow input lower words stop) (hparted : Parted input lower)
    (p : Word → Bool) : ∃ lower', lower ≤ lower' ∧ Parted input lower' ∧
      InRow input lower' (words.dropWhile p) stop := by
  induction h with
  | nil hle hstop => exact ⟨_, Nat.le_refl _, hparted, .nil hle hstop⟩
  | @cons lower w words stop hle hstands hparted' hbegins rest ih =>
      rw [List.dropWhile_cons]
      split
      · obtain ⟨lower', hle', hrest⟩ := ih hparted'
        have hstop := w.offset_le_stop
        exact ⟨lower', by omega, hrest⟩
      · exact ⟨lower, Nat.le_refl _, hparted, .cons hle hstands hparted' hbegins rest⟩

end InRow

end Word

namespace Lexer

open Scan

variable {input : List UInt8} {s : Lexer}

theorem wordsFrom_tracks {words : List Word} (hs : s.At input) :
    Tracks input s (wordsFrom words) fun found t => ∃ read, found.words = words.reverse ++ read ∧
      Word.InRow input s.position.offset read found.stop ∧
      found.stop.offset ≤ t.position.offset := by
  unfold Tracks
  fun_induction wordsFrom words s with
  | case1 words s e t hword => exact (nextWord_tracks hs).of_error hword
  | case2 words s w t hword hstop =>
      obtain ⟨ht, hle, hfrom, hstands, hoffset, -⟩ := (nextWord_tracks hs).of_ok hword
      refine ⟨ht, hle, [], by simp, .nil hfrom hstands.located, ?_⟩
      rw [hoffset]
      exact w.offset_le_stop
  | case3 words s w t hword hstop ih =>
      obtain ⟨ht, hle, hfrom, hstands, hoffset, hparted, hbegins⟩ := (nextWord_tracks hs).of_ok hword
      have hrest := ih ht
      rw [hoffset] at hparted
      split at hrest
      · obtain ⟨hu, hle', read, hwords, hrow, hupper⟩ := hrest
        refine ⟨hu, Nat.le_trans hle hle', w :: read, ?_, ?_, hupper⟩
        · rw [hwords, List.reverse_cons, List.append_assoc]
          rfl
        · rw [hoffset] at hrow
          refine .cons hfrom hstands hparted (fun hlower => ?_) hrow
          exact (hbegins hlower).imp_right fun h => h.resolve_left hstop
      · exact hrest

theorem statement_tracks (hs : s.At input) : Tracks input s statement fun found t =>
    Word.InRow input s.position.offset found.words found.stop ∧
      found.stop.offset ≤ t.position.offset := by
  refine (wordsFrom_tracks hs).mono fun found _ h => ?_
  obtain ⟨read, hwords, hrow⟩ := h
  rw [hwords]
  exact hrow

end Lexer

/-! ## Tokens and their text -/

def TokenKind.WrittenAt (input : List UInt8) (offset : Nat) : TokenKind → Prop
  | name text => '#' ∉ text.toList ∧ ∃ rest, wordAt input offset = Text.toUtf8 text ++ rest ∧
      ∀ b, rest.head? = some b → b = 0x23
  | typeParam text => ∃ rest, wordAt input offset = 0x7b :: (Text.toUtf8 text ++ 0x3a :: rest)
  | paramName text => ':' ∉ text.toList ∧
      ∃ rest, wordAt input offset = Text.toUtf8 text ++ 0x3a :: rest
  | paramType text => wordAt input offset = Text.toUtf8 text
  | resultType text => ∃ first rest, text = " ".intercalate (first :: rest) ∧
      wordAt input offset = Text.toUtf8 first ∧ Text.toUtf8 first ≠ [] ∧ Starts input offset
  | sectionMark _ | id _ | paramsBegin | paramsEnd => True

namespace Token

/-- The token has the position of a byte of the input at which what it says is written. -/
structure Points (input : List UInt8) (t : Token) : Prop where
  located : t.position.Located input
  written : t.kind.WrittenAt input t.position.offset

/-- `id` is the identifier that goes with `name`: the literal behind the `#`, where it points then, or
one that was derived and points at the name. -/
def Identifies (input : List UInt8) (name id : Token) : Prop :=
  ∃ text value, name.kind = .name text ∧ id.kind = .id value ∧
    ((∃ literal, Word.idLiteral? literal.toList = some value ∧
      wordAt input name.position.offset = Text.toUtf8 text ++ 0x23 :: Text.toUtf8 literal ∧
      id.position.offset = name.position.offset + (Text.toUtf8 text).length + 1 ∧
      wordAt input id.position.offset = Text.toUtf8 literal) ∨
    (wordAt input name.position.offset = Text.toUtf8 text ∧ id.position = name.position))

theorem Identifies.le {input : List UInt8} {name id : Token} (h : Identifies input name id) :
    name.position.offset ≤ id.position.offset := by
  obtain ⟨text, value, -, -, ⟨literal, -, -, hoffset, -⟩ | ⟨-, hposition⟩⟩ := h
  · omega
  · rw [hposition]

/-- Tokens that point into the input one behind the other, between two offsets. An identifier follows
its name. -/
inductive Row (input : List UInt8) : Nat → List Token → Nat → Prop
  | nil {lower upper : Nat} (hle : lower ≤ upper) : Row input lower [] upper
  | cons {lower : Nat} {t : Token} {tokens : List Token} {upper : Nat}
      (hle : lower ≤ t.position.offset) (ht : t.Points input) (hid : ∀ value, t.kind ≠ .id value)
      (rest : Row input t.position.offset tokens upper) : Row input lower (t :: tokens) upper
  | declared {lower : Nat} {name id : Token} {tokens : List Token} {upper : Nat}
      (hle : lower ≤ name.position.offset) (hname : name.Points input) (hid : id.Points input)
      (hidentifies : Identifies input name id) (rest : Row input id.position.offset tokens upper) :
      Row input lower (name :: id :: tokens) upper

namespace Row

variable {input : List UInt8} {lower middle upper : Nat} {tokens later : List Token}

theorem le (h : Row input lower tokens upper) : lower ≤ upper := by
  induction h with
  | nil hle => exact hle
  | cons hle ht hid rest ih => exact Nat.le_trans hle ih
  | declared hle hname hid hidentifies rest ih =>
      have hbetween := hidentifies.le
      omega

theorem append (h : Row input lower tokens middle) (hlater : Row input middle later upper) :
    Row input lower (tokens ++ later) upper := by
  induction h generalizing upper with
  | nil hle =>
      cases hlater with
      | nil hle' => exact .nil (Nat.le_trans hle hle')
      | cons hle' ht hid rest => exact .cons (Nat.le_trans hle hle') ht hid rest
      | declared hle' hname hid hidentifies rest =>
          exact .declared (Nat.le_trans hle hle') hname hid hidentifies rest
  | cons hle ht hid rest ih => exact .cons hle ht hid (ih hlater)
  | declared hle hname hid hidentifies rest ih =>
      exact .declared hle hname hid hidentifies (ih hlater)

theorem mono_lower {lower' : Nat} (hle : lower' ≤ lower) (h : Row input lower tokens upper) :
    Row input lower' tokens upper :=
  append (.nil hle) h

theorem mono_upper {upper' : Nat} (h : Row input lower tokens upper) (hle : upper ≤ upper') :
    Row input lower tokens upper' := by
  have hrow := h.append (.nil hle)
  rwa [List.append_nil] at hrow

theorem take (h : Row input lower tokens upper) (n : Nat) : Row input lower (tokens.take n) upper := by
  induction h generalizing n with
  | nil hle =>
      rw [List.take_nil]
      exact .nil hle
  | cons hle ht hid rest ih =>
      cases n with
      | zero => exact .nil (Nat.le_trans hle rest.le)
      | succ n => exact .cons hle ht hid (ih n)
  | declared hle hname hid hidentifies rest ih =>
      have hbetween := hidentifies.le
      have hrest := rest.le
      match n with
      | 0 => exact .nil (by omega)
      | 1 =>
          obtain ⟨text, _, hkind, -⟩ := hidentifies
          exact .cons hle hname (by simp [hkind]) (.nil (by omega))
      | n + 2 => exact .declared hle hname hid hidentifies (ih n)

theorem points (h : Row input lower tokens upper) : ∀ t ∈ tokens, t.Points input := by
  induction h with
  | nil => exact List.forall_mem_nil _
  | cons hle ht hid rest ih => exact List.forall_mem_cons.mpr ⟨ht, ih⟩
  | declared hle hname hid hidentifies rest ih =>
      exact List.forall_mem_cons.mpr ⟨hname, List.forall_mem_cons.mpr ⟨hid, ih⟩⟩

theorem lower_le (h : Row input lower tokens upper) :
    ∀ t ∈ tokens, lower ≤ t.position.offset := by
  induction h with
  | nil => exact List.forall_mem_nil _
  | cons hle ht hid rest ih =>
      exact List.forall_mem_cons.mpr ⟨hle, fun t ht => Nat.le_trans hle (ih t ht)⟩
  | declared hle hname hid hidentifies rest ih =>
      have hbetween := Nat.le_trans hle hidentifies.le
      refine List.forall_mem_cons.mpr ⟨hle, List.forall_mem_cons.mpr ⟨hbetween, fun t ht => ?_⟩⟩
      exact Nat.le_trans hbetween (ih t ht)

theorem sorted (h : Row input lower tokens upper) :
    tokens.Pairwise fun t t' => t.position.offset ≤ t'.position.offset := by
  induction h with
  | nil => exact .nil
  | cons hle ht hid rest ih => exact .cons rest.lower_le ih
  | declared hle hname hid hidentifies rest ih =>
      have hbetween := hidentifies.le
      refine .cons (List.forall_mem_cons.mpr ⟨hbetween, fun t ht => ?_⟩) (.cons rest.lower_le ih)
      exact Nat.le_trans hbetween (rest.lower_le t ht)

theorem exists_name (h : Row input lower tokens upper) {id : Token} (hid : id ∈ tokens)
    {value : UInt32} (hkind : id.kind = .id value) :
    ∃ name, [name, id] <:+: tokens ∧ Identifies input name id := by
  induction h with
  | nil => cases hid
  | @cons lower t tokens upper hle ht hno rest ih =>
      rcases List.mem_cons.mp hid with rfl | hmem
      · exact absurd hkind (hno value)
      · obtain ⟨name, hinfix, hname⟩ := ih hmem
        exact ⟨name, hinfix.trans (List.infix_cons List.infix_rfl), hname⟩
  | @declared lower name id' tokens upper hle hname hid' hidentifies rest ih =>
      rcases List.mem_cons.mp hid with rfl | hmem
      · obtain ⟨text, _, hname, -⟩ := hidentifies
        rw [hname] at hkind
        cases hkind
      · rcases List.mem_cons.mp hmem with rfl | hmem
        · exact ⟨name, ⟨[], tokens, rfl⟩, hidentifies⟩
        · obtain ⟨name', hinfix, hname'⟩ := ih hmem
          exact ⟨name', hinfix.trans ⟨[name, id'], [], by simp⟩, hname'⟩

end Row

end Token

/-! ## The tokens of one declaration -/

def Token.Placed (input : List UInt8) (lower : Nat) (x : Except LexError (List Token)) (upper : Nat) :
    Prop :=
  match x with
  | .ok tokens => Row input lower tokens upper
  | .error e => e.position.Located input

open Token (Placed)

theorem Token.Placed.bind {input : List UInt8} {lower lower' middle upper : Nat}
    {x : Except LexError (List Token)} {f : List Token → Except LexError (List Token)}
    (hx : Placed input lower x middle)
    (hf : ∀ tokens, Row input lower tokens middle → Placed input lower' (f tokens) upper) :
    Placed input lower' (x >>= f) upper := by
  cases x with
  | error e => exact hx
  | ok tokens => exact hf tokens hx

theorem Token.Placed.mono_lower {input : List UInt8} {lower lower' upper : Nat}
    {x : Except LexError (List Token)} (h : Placed input lower x upper) (hle : lower' ≤ lower) :
    Placed input lower' x upper := by
  cases x with
  | error e => exact h
  | ok tokens => exact Row.mono_lower hle h

theorem Word.parameterTokens_placed {input : List UInt8} {w : Word} (h : w.Stands input) :
    Placed input w.position.offset w.parameterTokens w.stop := by
  unfold parameterTokens
  split
  · rename_i name type hsplit
    split
    · exact h.located
    · rename_i hne
      obtain ⟨htext, hcolon⟩ := Text.splitFirst_eq_some hsplit
      have hvisible : Text.isVisible ':' = true := by decide
      have htype : type ≠ [] := fun hnil => hne (by simp [hnil])
      obtain ⟨hlocated, hbehind⟩ := h.behind hvisible htext
      have hlength := length_toUtf8_of_toList_eq hvisible htext
      refine .cons (Nat.le_refl _) ⟨h.located, ?_, Text.toUtf8 (String.ofList type), ?_⟩ (by simp)
        (.cons (Nat.le_add_right _ _) ⟨hlocated, hbehind htype⟩ (by simp) (.nil ?_))
      · rwa [String.toList_ofList]
      · exact h.text.trans (Text.toUtf8_of_toList_eq hvisible htext)
      · rw [stop, hlength]
        change w.position.offset + _ ≤ _
        omega
  · exact h.located

theorem Word.toUtf8_of_blockVariable? {w : Word} {variableName : List Char}
    (h : w.blockVariable? = some variableName) : ∃ rest,
      Text.toUtf8 w.text = 0x7b :: (Text.toUtf8 (String.ofList variableName) ++ 0x3a :: rest) := by
  unfold blockVariable? at h
  simp only [Option.bind_eq_bind, Option.bind_eq_some_iff] at h
  obtain ⟨inner, hinner, body, hbody, ⟨name, type⟩, hsplit, h⟩ := h
  split at h
  · cases h
  · cases h
    have hinside := (Text.splitFirst_eq_some hsplit).1
    have hinner' : (String.ofList inner).toList = name ++ ':' :: (type ++ ['\x7d']) := by
      rw [String.toList_ofList, Text.dropLast?_eq_some hbody, hinside]
      simp
    have htext : w.text.toList = [] ++ '{' :: inner := by
      rw [Text.dropHead?_eq_some hinner]
      rfl
    refine ⟨Text.toUtf8 (String.ofList (type ++ ['\x7d'])), ?_⟩
    rw [Text.toUtf8_of_toList_eq (by decide) htext, Text.toUtf8_of_toList_eq (by decide) hinner']
    rfl

namespace Statement

variable {input : List UInt8} {lower : Nat} {stop : Position} {words : List Word}

theorem resultTokens_placed (h : Word.InRow input lower words stop) (hparted : Parted input lower) :
    Placed input lower (resultTokens stop words) stop.offset := by
  unfold resultTokens
  split
  · rename_i w hfind
    exact (h.stands w (List.mem_of_find?_eq_some hfind)).located
  · rename_i hnone
    cases h with
    | nil hle hstop => exact hstop
    | cons hle hstands _ hbegins rest =>
        have hne : ¬ (_ == "=") = true := List.find?_eq_none.mp hnone _ List.mem_cons_self
        have hstarts := (hbegins hparted).resolve_left (by simpa using hne)
        have hstop := rest.le
        refine .cons hle ⟨hstands.located, ?_⟩ (by simp) (.nil ?_)
        · exact ⟨_, _, rfl, hstands.text, hstands.ne_nil, hstarts⟩
        · exact Nat.le_trans (Word.offset_le_stop _) hstop

theorem laterTokens_placed (h : Word.InRow input lower words stop) (hparted : Parted input lower) :
    Placed input lower (laterTokens stop words) stop.offset := by
  induction h with
  | nil hle hstop => exact hstop
  | @cons lower w words stop hle hstands hparted' _ rest ih =>
      have hstop := w.offset_le_stop
      unfold laterTokens
      split
      · have hresult := resultTokens_placed rest hparted'
        cases hx : resultTokens stop words with
        | error e =>
            rw [hx] at hresult
            exact hresult
        | ok later =>
            rw [hx] at hresult
            exact .cons hle ⟨hstands.located, trivial⟩ (by simp) (hresult.mono_lower hstop)
      · refine (Word.parameterTokens_placed hstands).bind fun parameter hparameter => ?_
        refine (ih hparted').bind fun later hlater => ?_
        exact (hparameter.append hlater).mono_lower hle

theorem bodyTokens_placed (h : Word.InRow input lower words stop) (hparted : Parted input lower) :
    Placed input lower (bodyTokens stop words) stop.offset := by
  fun_induction bodyTokens stop words generalizing lower with
  | case1 => exact h.stop_located
  | case2 w rest hequals =>
      obtain ⟨hle, hparted, hrest⟩ := h.tail
      exact (resultTokens_placed hrest hparted).mono_lower hle
  | case3 => exact h.stop_located
  | case4 w rest _ _ equals later hskip =>
      obtain ⟨hle, hparted, hrest⟩ := h.tail
      obtain ⟨lower', hle', -, hfound⟩ := hrest.dropWhile hparted (·.text != "=")
      rw [hskip] at hfound
      obtain ⟨hle'', hparted', hlater⟩ := hfound.tail
      exact (resultTokens_placed hlater hparted').mono_lower (by omega)
  | case5 w rest _ _ _ ih =>
      obtain ⟨hle, hparted, hrest⟩ := h.tail
      exact (ih hrest hparted).mono_lower hle
  | case6 w rest _ _ _ _ variableName hvariable ih =>
      cases h with
      | cons hle hstands hparted' _ hrest =>
          refine (ih hrest hparted').bind fun later hlater => ?_
          obtain ⟨tail, htext⟩ := Word.toUtf8_of_blockVariable? hvariable
          refine .cons hle ⟨hstands.located, tail, hstands.text.trans htext⟩ (by simp) ?_
          exact hlater.mono_lower w.offset_le_stop
  | case7 w rest => exact (h.stands w List.mem_cons_self).located
  | case8 w rest =>
      cases h with
      | cons hle hstands hparted' _ hrest =>
          refine (Word.parameterTokens_placed hstands).bind fun parameter hparameter => ?_
          refine (laterTokens_placed hrest hparted').bind fun later hlater => ?_
          exact .cons hle ⟨hstands.located, trivial⟩ (by simp) (hparameter.append hlater)

theorem tokens_placed {s : Statement} (h : Word.InRow input lower s.words s.stop) :
    Placed input lower s.tokens s.stop.offset := by
  unfold tokens
  split
  · rename_i hwords
    exact .nil h.le
  · rename_i head rest hwords
    have hupper := h.le
    rw [hwords] at h
    cases h with
    | cons hle hstands hparted _ hrest =>
        have hbody := bodyTokens_placed hrest hparted
        simp only
        split
        · rename_i name literal hsplit
          obtain ⟨htext, hno⟩ := Text.splitFirst_eq_some hsplit
          have hvisible : Text.isVisible '#' = true := by decide
          obtain ⟨hlocated, hbehind⟩ := hstands.behind hvisible htext
          have hword := hstands.text.trans (Text.toUtf8_of_toList_eq hvisible htext)
          have hlength := Word.length_toUtf8_of_toList_eq hvisible htext
          split
          · exact hstands.located
          · split
            · rename_i id hid
              have hliteral : literal ≠ [] := by
                rintro rfl
                cases hid
              refine hbody.bind fun body hbody => ?_
              refine .declared hle ⟨hstands.located, ?_, _, hword, ?_⟩ ⟨hlocated, trivial⟩
                ⟨_, _, rfl, rfl, .inl ⟨String.ofList literal, ?_, hword, ?_, hbehind hliteral⟩⟩
                (hbody.mono_lower ?_)
              · rwa [String.toList_ofList]
              · rintro b hb
                cases hb
                rfl
              · rwa [String.toList_ofList]
              · rfl
              · rw [Word.stop, hlength]
                change head.position.offset + _ ≤ _
                omega
            · exact hlocated
        · rename_i hsplit
          have hword : wordAt input head.position.offset = Text.toUtf8 head.text ++ [] := by
            rw [List.append_nil, hstands.text]
          split
          · refine hbody.bind fun body hbody => ?_
            refine .declared hle ⟨hstands.located, Text.splitFirst_eq_none.mp hsplit, _, hword, ?_⟩
              ⟨hstands.located, trivial⟩ ⟨_, _, rfl, rfl, .inr ⟨hstands.text, rfl⟩⟩
              (hbody.mono_lower head.offset_le_stop)
            rintro b hb
            cases hb
          · exact .nil hupper

end Statement

/-! ## The lexer -/

namespace Lexer

open Scan

variable {input : List UInt8} {s : Lexer}

theorem declaration_tracks (hs : s.At input) : Tracks input s declaration fun tokens t =>
    Token.Row input s.position.offset tokens t.position.offset := by
  refine (statement_tracks hs).bind fun words t ht _ hwords => ?_
  obtain ⟨hrow, hstop⟩ := hwords
  have hplaced := Statement.tokens_placed hrow
  cases htokens : words.tokens with
  | error e =>
      rw [htokens] at hplaced
      exact .throw ht hplaced
  | ok tokens =>
      rw [htokens] at hplaced
      exact .pure ht (hplaced.mono_upper hstop)

/-- A group that was read is in a row, between the position before it and the one behind it. -/
theorem nextGroup_tracks (hs : s.At input) (hpending : s.pending = []) :
    Tracks input s nextGroup fun first t =>
      Token.Row input s.position.offset (first.toList ++ t.pending) t.position.offset := by
  unfold Tracks
  fun_induction nextGroup s with
  | case1 s e t htrivia => exact (skipTrivia_tracks hs).of_error htrivia
  | case2 s _ t htrivia e v hpeek =>
      obtain ⟨ht, -⟩ := (skipTrivia_tracks hs).of_ok htrivia
      exact (peek_tracks ht).of_error hpeek
  | case3 s _ t htrivia v hpeek =>
      obtain ⟨ht, hle, -⟩ := (skipTrivia_tracks hs).of_ok htrivia
      obtain rfl := peek_eq_ok hpeek
      refine ⟨ht, hle, ?_⟩
      change Token.Row input s.position.offset ([] ++ v.pending) v.position.offset
      rw [(skipTrivia_seesBytes.frame_ok htrivia).1, hpending]
      exact .nil hle
  | case4 s _ t htrivia v hpeek =>
      obtain ⟨ht, hle, -⟩ := (skipTrivia_tracks hs).of_ok htrivia
      have hbefore := (skipTrivia_seesBytes.frame_ok htrivia).1.trans hpending
      have hmark : Tracks input t (some <$> sectionMark) fun first _ => ∃ token category,
          first = some token ∧ token.position = t.position ∧ token.kind = .sectionMark category := by
        refine (sectionMark_tracks ht).map fun token _ h => ?_
        obtain ⟨hposition, category, hkind⟩ := h
        exact ⟨token, category, rfl, hposition, hkind⟩
      cases hgroup : (some <$> sectionMark) t with
      | error e u => exact hmark.of_error hgroup
      | ok first u =>
          obtain ⟨hu, hle', token, category, rfl, hposition, hkind⟩ := hmark.of_ok hgroup
          refine ⟨hu, Nat.le_trans hle hle', ?_⟩
          change Token.Row input s.position.offset (token :: u.pending) u.position.offset
          rw [((sectionMark_seesBytes.map some).frame_ok hgroup).1, hbefore]
          refine .cons ?_ ⟨?_, ?_⟩ (by simp [hkind]) (.nil ?_)
          · rwa [hposition]
          · rw [hposition]
            exact ht.located
          · rw [hkind]
            trivial
          · rwa [hposition]
  | case5 s _ t htrivia b v hpeek hmark e u hdeclaration =>
      obtain ⟨ht, -⟩ := (skipTrivia_tracks hs).of_ok htrivia
      exact (declaration_tracks ht).of_error hdeclaration
  | case6 s _ t htrivia b v hpeek hmark u hdeclaration ih =>
      obtain ⟨ht, hle, -⟩ := (skipTrivia_tracks hs).of_ok htrivia
      obtain ⟨hu, hle', -⟩ := (declaration_tracks ht).of_ok hdeclaration
      have hbefore : u.pending = [] := by
        rw [(declaration_seesBytes.frame_ok hdeclaration).1,
          (skipTrivia_seesBytes.frame_ok htrivia).1, hpending]
      have hrest := ih hu hbefore
      split at hrest
      · obtain ⟨hv, hle'', hrow⟩ := hrest
        exact ⟨hv, by omega, hrow.mono_lower (by omega)⟩
      · exact hrest
  | case7 s _ t htrivia b v hpeek hmark first rest u hdeclaration =>
      obtain ⟨ht, hle, -⟩ := (skipTrivia_tracks hs).of_ok htrivia
      obtain ⟨hu, hle', hrow⟩ := (declaration_tracks ht).of_ok hdeclaration
      exact ⟨⟨hu.located, hu.remaining⟩, Nat.le_trans hle hle', hrow.mono_lower hle⟩

theorem nextToken_tracks (hs : s.At input) (hpoints : ∀ t ∈ s.pending, t.Points input) :
    Tracks input s nextToken fun found t =>
      (∀ token ∈ t.pending, token.Points input) ∧ ∀ token, found = some token → token.Points input := by
  unfold Tracks
  cases hpending : s.pending with
  | cons first rest =>
      rw [hpending] at hpoints
      rw [nextToken_of_pending hpending]
      obtain ⟨hfirst, hrest⟩ := List.forall_mem_cons.mp hpoints
      refine ⟨⟨hs.located, hs.remaining⟩, Nat.le_refl _, hrest, ?_⟩
      rintro token ⟨⟩
      exact hfirst
  | nil =>
      cases hfailed : s.failed with
      | true =>
          rw [nextToken_of_failed hpending hfailed]
          refine ⟨hs, Nat.le_refl _, hpoints, ?_⟩
          rintro token ⟨⟩
      | false =>
          rw [nextToken_of_nextGroup hpending hfailed]
          have hgroup := nextGroup_tracks hs hpending
          cases hresult : nextGroup s with
          | error e t =>
              obtain ⟨ht, he⟩ := hgroup.of_error hresult
              exact ⟨⟨ht.located, ht.remaining⟩, he⟩
          | ok first t =>
              obtain ⟨ht, hle, hrow⟩ := hgroup.of_ok hresult
              have hmem := hrow.points
              refine ⟨ht, hle, fun token h => hmem token (List.mem_append_right _ h), ?_⟩
              rintro token rfl
              exact hmem token (List.mem_append_left _ (List.mem_singleton.mpr rfl))

/-! ## The tokens of a whole source -/

theorem nextGroup_of_nextToken {t : Lexer} {token : Token} (hpending : s.pending = [])
    (h : nextToken s = .ok (some token) t) : nextGroup s = .ok (some token) t := by
  cases hfailed : s.failed with
  | true =>
      rw [nextToken_of_failed hpending hfailed] at h
      cases h
  | false =>
      rw [nextToken_of_nextGroup hpending hfailed] at h
      split at h
      · cases h
      · exact h

theorem run_row (hs : s.At input) (hpending : s.pending = []) :
    Token.Row input s.position.offset s.run.tokens input.length := by
  -- On the bytes that are left: a group takes at least one, its other tokens come without a read.
  induction hlength : s.remaining.length using Nat.strong_induction_on generalizing s with
  | _ n ih =>
      rcases hnext : nextToken s with ⟨_ | token, t⟩ | ⟨e, t⟩
      · rw [run_of_none hnext]
        exact .nil hs.located.le
      · have hgroup := nextGroup_of_nextToken hpending hnext
        obtain ⟨ht, hle, hrow⟩ := (nextGroup_tracks hs hpending).of_ok hgroup
        have hless := length_remaining_nextGroup hgroup
        rw [hlength] at hless
        have hrest := ih _ hless (s := { t with pending := [] }) ⟨ht.located, ht.remaining⟩ rfl rfl
        rw [run_of_some hnext, Run.cons, (run_of_pending rfl).1]
        exact hrow.append hrest
      · rw [run_of_error hnext]
        exact .nil hs.located.le

end Lexer

/-! ## What can be seen -/

namespace Lexer.Observation

/-- Every position that shows points into the input, and a token at what it says. -/
structure Points (input : List UInt8) (o : Observation) : Prop where
  position : o.position.Located input
  token : ∀ t, o.outcome = .ok (some t) → t.Points input
  error : ∀ e, o.outcome = .error e → e.position.Located input

def token? (o : Observation) : Option Token :=
  match o.outcome with
  | .ok found => found
  | .error _ => none

end Lexer.Observation

namespace Lexer

open Scan

variable {input : List UInt8} {s : Lexer}

theorem points_of_mem_observe (hs : s.At input) (hpoints : ∀ t ∈ s.pending, t.Points input)
    (calls : Nat) : ∀ o ∈ s.observe calls, o.Points input := by
  induction calls generalizing s with
  | zero => exact List.forall_mem_nil _
  | succ calls ih =>
      have htracks := nextToken_tracks hs hpoints
      rw [observe]
      cases hnext : nextToken s with
      | ok found t =>
          obtain ⟨ht, -, hpending, hfound⟩ := htracks.of_ok hnext
          refine List.forall_mem_cons.mpr ⟨⟨ht.located, ?_, ?_⟩, ih ht hpending⟩
          · rintro token ⟨⟩
            exact hfound token rfl
          · rintro e ⟨⟩
      | error e t =>
          obtain ⟨ht, he⟩ := htracks.of_error hnext
          refine List.forall_mem_cons.mpr ⟨⟨ht.located, ?_, ?_⟩, fun o ho => ?_⟩
          · rintro token ⟨⟩
          · rintro e' ⟨⟩
            exact he
          · simp only [observe_of_still (nextToken_eq_error hnext).2] at ho
            rw [(List.mem_replicate.mp ho).2]
            exact ⟨ht.located, by rintro token ⟨⟩, by rintro e ⟨⟩⟩

theorem filterMap_observe (s : Lexer) (calls : Nat) :
    (s.observe calls).filterMap Observation.token? = s.run.tokens.take calls := by
  have hstill {t : Lexer} (h : nextToken t = .ok none t) (calls : Nat) :
      (t.observe calls).filterMap Observation.token? = [] := by
    rw [observe_of_still h, List.filterMap_replicate]
    rfl
  induction calls generalizing s with
  | zero => rfl
  | succ calls ih =>
      rw [observe]
      rcases hnext : nextToken s with ⟨_ | token, t⟩ | ⟨e, t⟩
      · rw [run_of_none hnext]
        exact hstill (nextToken_eq_none hnext).2 calls
      · rw [run_of_some hnext]
        exact congrArg (token :: ·) (ih t)
      · rw [run_of_error hnext]
        exact hstill (nextToken_eq_error hnext).2 calls

/-- However the bytes of a source arrive and however many tokens are asked for: every position that
shows, of a token, of an error or of the lexer, is that of a byte of the input or of its end, counted
by the line feeds; every token points at what it says; no token points in front of an earlier one;
and an identifier points at its literal, or at its name if it was derived. -/
theorem observe_points (source : List Delivery) (capacity calls : Nat) :
    let input := Delivery.bytes source
    let seen := (ofSource source capacity).observe calls
    let tokens := seen.filterMap Observation.token?
    (∀ o ∈ seen, o.Points input) ∧
      (tokens.Pairwise fun t t' => t.position.offset ≤ t'.position.offset) ∧
      ∀ id ∈ tokens, ∀ value, id.kind = .id value →
        ∃ name, [name, id] <:+: tokens ∧ Token.Identifies input name id := by
  intro input seen tokens
  have hs := At.start source capacity
  have hrow := (run_row hs rfl).take calls
  rw [← filterMap_observe] at hrow
  refine ⟨points_of_mem_observe hs (List.forall_mem_nil _) calls, hrow.sorted, ?_⟩
  intro id hid value hkind
  exact hrow.exists_name hid hkind

end Lexer

end TypeLang
