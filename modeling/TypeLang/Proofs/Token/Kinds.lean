import Mathlib.Data.List.Basic
import TypeLang.Token.Statement

/-!
# Tokens without positions

The kinds of the tokens of a declaration, the identifier that is derived for it, or the fault in it,
are those of its words: where the words stand does not show (`Statement.tokens_alike`).
-/

namespace TypeLang

def kindsOf (r : Except LexError (List Token)) : Except LexFault (List TokenKind) :=
  match r with
  | .ok tokens => .ok (tokens.map (·.kind))
  | .error e => .error e.fault

/-- Both give tokens of the same kinds, or both have the same fault. -/
def Alike (r r' : Except LexError (List Token)) : Prop :=
  kindsOf r = kindsOf r'

namespace Alike

variable {r r' : Except LexError (List Token)}

theorem ok {tokens tokens' : List Token} (h : tokens.map (·.kind) = tokens'.map (·.kind)) :
    Alike (.ok tokens) (.ok tokens') :=
  congrArg Except.ok h

theorem bind {next next' : List Token → Except LexError (List Token)} (h : Alike r r')
    (hnext : ∀ tokens tokens', tokens.map (·.kind) = tokens'.map (·.kind) →
      Alike (next tokens) (next' tokens')) : Alike (r >>= next) (r' >>= next') := by
  unfold Alike at h
  cases r with
  | error e =>
      cases r' with
      | error e' => exact h
      | ok tokens' => cases h
  | ok tokens =>
      cases r' with
      | error e' => cases h
      | ok tokens' => exact hnext tokens tokens' (Except.ok.inj h)

theorem cons (h : Alike r r') {token token' : Token} (hkind : token.kind = token'.kind) :
    Alike (r.map (token :: ·)) (r'.map (token' :: ·)) := by
  unfold Alike at h
  cases r with
  | error e =>
      cases r' with
      | error e' => exact h
      | ok tokens' => cases h
  | ok tokens =>
      cases r' with
      | error e' => cases h
      | ok tokens' =>
          have hkinds : tokens.map (·.kind) = tokens'.map (·.kind) := Except.ok.inj h
          exact .ok (by rw [List.map_cons, List.map_cons, hkind, hkinds])

end Alike

namespace Word

theorem parameterTokens_alike {w w' : Word} (h : w.text = w'.text) :
    Alike w.parameterTokens w'.parameterTokens := by
  unfold parameterTokens unexpected
  rw [h]
  split
  · split <;> rfl
  · rfl

end Word

namespace Statement

variable {stop stop' : Position} {words words' : List Word}

theorem exists_of_texts_cons {w : Word}
    (h : (w :: words).map (·.text) = words'.map (·.text)) :
    ∃ w' rest, words' = w' :: rest ∧ w.text = w'.text ∧
      words.map (·.text) = rest.map (·.text) := by
  obtain ⟨w', rest, rfl, htext, hrest⟩ := List.map_eq_cons_iff.mp h.symm
  exact ⟨w', rest, rfl, htext.symm, hrest.symm⟩

theorem resultTokens_alike (h : words.map (·.text) = words'.map (·.text)) :
    Alike (resultTokens stop words) (resultTokens stop' words') := by
  have hfind : (words.find? (·.text == "=")).map (·.text) =
      (words'.find? (·.text == "=")).map (·.text) := by
    have hmap := congrArg (List.find? (· == "=")) h
    rw [List.find?_map, List.find?_map] at hmap
    exact hmap
  unfold resultTokens
  cases hw : words.find? (·.text == "=") with
  | some w =>
      rw [hw] at hfind
      obtain ⟨w', hw', htext⟩ := Option.map_eq_some_iff.mp hfind.symm
      rw [hw']
      exact congrArg (fun text => Except.error (LexFault.word text .resultType)) htext.symm
  | none =>
      rw [hw] at hfind
      rw [Option.map_eq_none_iff.mp hfind.symm]
      cases words with
      | nil =>
          obtain rfl := List.map_eq_nil_iff.mp h.symm
          rfl
      | cons first words =>
          obtain ⟨first', rest, rfl, -, -⟩ := exists_of_texts_cons h
          dsimp only
          rw [h]
          exact .ok rfl

theorem laterTokens_alike (h : words.map (·.text) = words'.map (·.text)) :
    Alike (laterTokens stop words) (laterTokens stop' words') := by
  induction words generalizing words' with
  | nil =>
      obtain rfl := List.map_eq_nil_iff.mp h.symm
      rfl
  | cons w words ih =>
      obtain ⟨w', rest, rfl, htext, hrest⟩ := exists_of_texts_cons h
      rw [laterTokens, laterTokens, htext]
      split
      · exact (resultTokens_alike hrest).cons rfl
      · refine (Word.parameterTokens_alike htext).bind fun first first' hfirst => ?_
        refine (ih hrest).bind fun later later' hlater => ?_
        exact .ok (by rw [List.map_append, List.map_append, hfirst, hlater])

theorem dropWhile_alike (h : words.map (·.text) = words'.map (·.text)) :
    (words.dropWhile (·.text != "=")).map (·.text) =
      (words'.dropWhile (·.text != "=")).map (·.text) := by
  have hdrop := congrArg (List.dropWhile (· != "=")) h
  rw [List.dropWhile_map, List.dropWhile_map] at hdrop
  exact hdrop

theorem bodyTokens_alike (h : words.map (·.text) = words'.map (·.text)) :
    Alike (bodyTokens stop words) (bodyTokens stop' words') := by
  induction words generalizing words' with
  | nil =>
      obtain rfl := List.map_eq_nil_iff.mp h.symm
      rfl
  | cons w words ih =>
      obtain ⟨w', rest, rfl, htext, hrest⟩ := exists_of_texts_cons h
      have hblock : w.blockVariable? = w'.blockVariable? := by
        unfold Word.blockVariable?
        rw [htext]
      rw [bodyTokens, bodyTokens, hblock, htext]
      split
      · exact resultTokens_alike hrest
      split
      · have hdrop := dropWhile_alike hrest
        cases hwords : words.dropWhile (·.text != "=") with
        | nil =>
            rw [hwords] at hdrop
            rw [List.map_eq_nil_iff.mp hdrop.symm]
            rfl
        | cons equals result =>
            rw [hwords] at hdrop
            obtain ⟨equals', result', hrest', -, hresult⟩ := exists_of_texts_cons hdrop
            rw [hrest']
            exact resultTokens_alike hresult
      split
      · exact ih hrest
      split
      · cases w'.blockVariable? with
        | none => exact congrArg (fun text => Except.error (LexFault.word text .genericBlock)) htext
        | some name =>
            refine (ih hrest).bind fun later later' hlater => ?_
            exact .ok (by rw [List.map_cons, List.map_cons, hlater])
      · refine (Word.parameterTokens_alike htext).bind fun first first' hfirst => ?_
        refine (laterTokens_alike hrest).bind fun later later' hlater => ?_
        exact .ok (by simp only [List.map_cons, List.map_append, List.cons_append, hfirst, hlater])

/-- The tokens of a declaration depend on its words alone, but for their positions. -/
theorem tokens_alike {s s' : Statement} (h : s.words.map (·.text) = s'.words.map (·.text)) :
    Alike s.tokens s'.tokens := by
  obtain ⟨words, stop⟩ := s
  obtain ⟨words', stop'⟩ := s'
  cases words with
  | nil =>
      obtain rfl : words' = [] := List.map_eq_nil_iff.mp h.symm
      rfl
  | cons head rest =>
      obtain ⟨head', rest', rfl, htext, hrest⟩ := exists_of_texts_cons h
      have hderived : derivedId (head :: rest) = derivedId (head' :: rest') := by
        unfold derivedId
        rw [h]
      have hparams : (rest.takeWhile (·.text != "=")).any Word.isParameter =
          (rest'.takeWhile (·.text != "=")).any Word.isParameter := by
        let parameter (text : String) : Bool := Word.isParameter ⟨text, .start⟩
        have htake := congrArg (fun texts => (texts.takeWhile (· != "=")).any parameter) hrest
        simp only [List.takeWhile_map, List.any_map] at htake
        exact htake
      have hdeclare (name : String) (id : UInt32) (place place' : Position) :
          Alike (do
              let body ← bodyTokens stop rest
              return ⟨.name name, head.position⟩ :: ⟨.id id, place⟩ :: body)
            (do
              let body ← bodyTokens stop' rest'
              return ⟨.name name, head'.position⟩ :: ⟨.id id, place'⟩ :: body) := by
        refine (bodyTokens_alike hrest).bind fun body body' hbody => ?_
        exact .ok (by simp only [List.map_cons, hbody])
      unfold tokens
      dsimp only
      rw [htext, hderived, hparams]
      split
      · split
        · exact congrArg (fun text => Except.error (LexFault.word text .declarationName)) htext
        · split
          · exact hdeclare ..
          · rfl
      · split
        · exact hdeclare ..
        · rfl

end Statement

end TypeLang
