import TypeLang.Proofs.Declaration.Assembly
import TypeLang.Proofs.Token.Spelling

/-!
# Reading declarations line by line

How bytes arrive does not show in the declarations either (`DeclarationReader.items_whole`), so that
a text may be taken as a lexer that has all of it ahead. There the reader does one thing for each
line: it passes over a line break, enters the section of a mark, and gives what the signature of a
declaration says.
-/

namespace TypeLang

namespace DeclarationReader

/-! ## Having all bytes in hand -/

theorem expectToken_whole (s : Lexer) :
    expectToken s.whole = Prod.map id Lexer.whole (expectToken s) := by
  unfold expectToken
  rw [Lexer.nextToken_whole]
  rcases s.nextToken with ⟨_ | token, t⟩ | ⟨e, t⟩ <;> rfl

theorem body_whole (d : Draft) (s : Lexer) :
    body d s.whole = Prod.map id Lexer.whole (body d s) := by
  rw [body_eq, expectToken_whole]
  fun_induction body d s with
  | case1 d s e t h => rw [h]; rfl
  | case2 d s t token h name hkind ih
  | case3 d s t token h hkind ih
  | case4 d s t token h hkind ih =>
      rw [h]
      simp only [Prod.map, id, hkind]
      rw [body_eq, expectToken_whole]
      exact ih
  | case5 d s t token h name hkind e u h' =>
      rw [h]
      simp only [Prod.map, id, hkind, expectToken_whole, h']
  | case6 d s t token h name hkind u next h' type hkind' d' hadd ih =>
      rw [h]
      simp only [Prod.map, id, hkind, expectToken_whole, h', hkind', hadd]
      rw [body_eq, expectToken_whole]
      exact ih
  | case7 d s t token h name hkind u next h' type hkind' e hadd =>
      rw [h]
      simp only [Prod.map, id, hkind, expectToken_whole, h', hkind', hadd]
  | case8 d s t token h name hkind u next h' hkind' =>
      rw [h]
      simp only [Prod.map, id, hkind, expectToken_whole, h']
  | case9 d s t token h type hkind =>
      rw [h]
      simp only [Prod.map, id, hkind]
  | case10 d s t token h =>
      rw [h]
      simp only [Prod.map, id]

theorem named_whole (spelling : String) (s : Lexer) :
    named spelling s.whole = Prod.map id Lexer.whole (named spelling s) := by
  unfold named
  rw [expectToken_whole]
  rcases expectToken s with ⟨e | token, t⟩
  · rfl
  · simp only [Prod.map, id]
    cases token.kind with
    | id id =>
        simp only
        cases QualifiedName.parse? spelling.toList with
        | none => rfl
        | some name => exact body_whole _ t
    | _ => rfl

theorem declaration?_eq (s : Lexer) :
    declaration? s =
      match s.nextToken with
      | .error e t => (.error (.lex e), t)
      | .ok none t => (.ok none, t)
      | .ok (some token) t =>
        match token.kind with
        | .sectionMark _ => declaration? t
        | .name spelling =>
          match named spelling t with
          | (.ok d, t) => (.ok (some d), t)
          | (.error e, t) => (.error e, t)
        | _ => (.error (outOfPlace token .declarationName), t) := by
  rw [declaration?]
  rcases s.nextToken with ⟨_ | ⟨kind, position⟩, t⟩ | ⟨e, t⟩
  · rfl
  · cases kind <;> rfl
  · rfl

theorem declaration?_whole (s : Lexer) :
    declaration? s.whole = Prod.map id Lexer.whole (declaration? s) := by
  rw [declaration?_eq, Lexer.nextToken_whole]
  fun_induction declaration? s with
  | case1 s e t h => rw [h]; rfl
  | case2 s t h => rw [h]; rfl
  | case3 s token t h c hkind ih =>
      rw [h]
      simp only [Scan.mapLexer, hkind]
      rw [declaration?_eq, Lexer.nextToken_whole]
      exact ih
  | case4 s token t h spelling hkind d u hnamed =>
      rw [h]
      simp only [Scan.mapLexer, hkind, named_whole, hnamed]
      rfl
  | case5 s token t h spelling hkind e u hnamed =>
      rw [h]
      simp only [Scan.mapLexer, hkind, named_whole, hnamed]
      rfl
  | case6 s token t h =>
      rw [h]
      simp only [Scan.mapLexer]
      rfl

def whole (r : DeclarationReader) : DeclarationReader :=
  { r with lexer := r.lexer.whole }

theorem next_whole (r : DeclarationReader) : r.whole.next = Prod.map id whole r.next := by
  obtain ⟨s, finished⟩ := r
  cases finished with
  | true => rfl
  | false =>
      unfold next
      simp only [whole, Bool.false_eq_true, if_false, declaration?_whole]
      rcases declaration? s with ⟨e | _ | d, t⟩ <;> rfl

theorem itemsFrom_eq (done : List (Except ParseError Declaration)) (r : DeclarationReader) :
    itemsFrom done r =
      match r.next with
      | (none, t) => (done.reverse, t)
      | (some (.error e), t) => ((.error e :: done).reverse, t)
      | (some (.ok d), t) => itemsFrom (.ok d :: done) t := by
  rw [itemsFrom]
  split <;> rename_i h <;> simp only [h]

theorem itemsFrom_whole (done : List (Except ParseError Declaration)) (r : DeclarationReader) :
    itemsFrom done r.whole = Prod.map id whole (itemsFrom done r) := by
  rw [itemsFrom_eq, next_whole]
  fun_induction itemsFrom done r with
  | case1 done r t h => rw [h]; rfl
  | case2 done r e t h => rw [h]; rfl
  | case3 done r d t h ih =>
      rw [h]
      simp only [Prod.map, id]
      rw [itemsFrom_eq, next_whole]
      exact ih

theorem items_whole (r : DeclarationReader) : r.whole.items.1 = r.items.1 := by
  rw [items, itemsFrom_whole]
  rfl

theorem whole_ofBytes (bytes : List UInt8) :
    (ofBytes bytes).whole = ⟨(Lexer.ofSource []).facing bytes .start, false⟩ := by
  cases bytes with
  | nil => rfl
  | cons b bytes =>
      simp only [whole, ofBytes, Lexer.ofBytes, Lexer.whole, Lexer.ofSource, Feed.whole,
        Feed.remaining, Delivery.bytes, Delivery.ending, Delivery.failure?, Lexer.facing]
      simp

/-! ## One line -/

section

variable {s : Lexer} (hpending : s.pending = []) (hfailed : s.failed = false)

abbrev facing (s : Lexer) (bytes : List UInt8) (p : Position) : DeclarationReader :=
  ⟨s.facing bytes p, false⟩

theorem next_congr {t u : Lexer} (h : declaration? t = declaration? u) :
    (DeclarationReader.mk t false).next = (DeclarationReader.mk u false).next := by
  unfold next
  rw [h]
  rfl

theorem itemsFrom_congr {r t : DeclarationReader} (h : r.next = t.next)
    (done : List (Except ParseError Declaration)) : itemsFrom done r = itemsFrom done t := by
  rw [itemsFrom_eq, h, ← itemsFrom_eq]

include hpending in
theorem next_facing_nil (p : Position) :
    (facing s [] p).next = (none, ⟨s.facing [] p, true⟩) := by
  unfold next
  rw [declaration?_eq, Lexer.nextToken_facing_nil hpending]
  rfl

include hpending hfailed

theorem next_facing_lineBreak (rest : List UInt8) (p : Position) :
    (facing s (0x0a :: rest) p).next = (facing s rest (p.after 0x0a)).next := by
  refine next_congr ?_
  rw [declaration?_eq, Lexer.nextToken_facing_lineBreak hpending hfailed, ← declaration?_eq]

theorem next_facing_mark (category : Category) (rest : List UInt8) (p : Position) :
    ∃ p', (facing s (Text.toUtf8 (Lexer.markText category ++ "\n") ++ rest) p).next =
      (facing { s with category } rest p').next := by
  obtain ⟨p', hmark⟩ := Lexer.nextToken_facing_mark hpending hfailed category (0x0a :: rest) p
  refine ⟨p'.after 0x0a, ?_⟩
  rw [← next_facing_lineBreak (s := { s with category }) hpending hfailed, Text.toUtf8_append,
    List.append_assoc]
  refine next_congr ?_
  change declaration? (s.facing (Text.toUtf8 (Lexer.markText category) ++ 0x0a :: rest) p) = _
  rw [declaration?_eq, hmark]

variable {sp : Spelling} {id : UInt32}

/-- A line gives what its signature says, and a declaration leaves the lexer behind the line. -/
theorem declaration?_facing_line (hlegible : sp.Legible)
    (hid : Word.idLiteral? sp.literal.toList = some id) (rest : List UInt8) (p : Position) :
    ∃ t, declaration? (s.facing (Text.toUtf8 (Lexer.line sp.words) ++ rest) p) =
        (((sp.signature id).declaration s.category).map some, t) ∧
      ∀ d, (sp.signature id).declaration s.category = .ok d → ∃ p', t = s.facing rest p' := by
  obtain ⟨token, pending, p', hnext, hname, hkinds⟩ :=
    Lexer.nextToken_facing_line hpending hfailed hlegible hid rest p
  obtain ⟨left, hnamed, hleft⟩ : Gives (named sp.name { s.facing rest p' with pending })
      { s.facing rest p' with pending } ((sp.signature id).declaration s.category) :=
    named_of_kinds (sp.signature id) hkinds
  refine ⟨leaving (s.facing rest p') left, ?_, fun d hd => ⟨p', ?_⟩⟩
  · rw [declaration?_eq, hnext]
    simp only [hname]
    rw [hnamed]
    cases (sp.signature id).declaration s.category <;> rfl
  · rw [hleft d hd, ← hpending]
    rfl

theorem next_facing_line_ok (hlegible : sp.Legible)
    (hid : Word.idLiteral? sp.literal.toList = some id) {d : Declaration}
    (h : (sp.signature id).declaration s.category = .ok d) (rest : List UInt8) (p : Position) :
    ∃ p', (facing s (Text.toUtf8 (Lexer.line sp.words) ++ rest) p).next =
      (some (.ok d), facing s rest p') := by
  obtain ⟨t, hdeclaration, hbehind⟩ :=
    declaration?_facing_line hpending hfailed hlegible hid rest p
  obtain ⟨p', rfl⟩ := hbehind d h
  refine ⟨p', ?_⟩
  unfold next
  rw [hdeclaration, h]
  rfl

theorem next_facing_line_error (hlegible : sp.Legible)
    (hid : Word.idLiteral? sp.literal.toList = some id) {e : ParseError}
    (h : (sp.signature id).declaration s.category = .error e) (rest : List UInt8) (p : Position) :
    (facing s (Text.toUtf8 (Lexer.line sp.words) ++ rest) p).next.1 = some (.error e) := by
  obtain ⟨t, hdeclaration, -⟩ := declaration?_facing_line hpending hfailed hlegible hid rest p
  unfold next
  rw [hdeclaration, h]
  rfl

end

/-- A section with one line gives what the signature of the line says, and nothing else. -/
theorem items_of_line {sp : Spelling} {id : UInt32} (hlegible : sp.Legible)
    (hid : Word.idLiteral? sp.literal.toList = some id) (category : Category) :
    (ofBytes (Text.toUtf8 (Lexer.markText category ++ "\n" ++ Lexer.line sp.words))).items.1 =
      [(sp.signature id).declaration category] := by
  rw [← items_whole, whole_ofBytes, Text.toUtf8_append, items]
  obtain ⟨p, hmark⟩ := next_facing_mark (s := Lexer.ofSource []) rfl rfl category
    (Text.toUtf8 (Lexer.line sp.words)) .start
  rw [itemsFrom_congr hmark, ← List.append_nil (Text.toUtf8 (Lexer.line sp.words))]
  generalize hs : { Lexer.ofSource [] with category } = s
  have hpending : s.pending = [] := by rw [← hs]; rfl
  have hfailed : s.failed = false := by rw [← hs]; rfl
  have hcategory : s.category = category := by rw [← hs]
  rw [← hcategory]
  cases h : (sp.signature id).declaration s.category with
  | ok d =>
      obtain ⟨p', hline⟩ := next_facing_line_ok hpending hfailed hlegible hid h [] p
      rw [itemsFrom_eq, hline]
      simp only
      rw [itemsFrom_eq, next_facing_nil hpending]
      rfl
  | error e =>
      have hline := next_facing_line_error hpending hfailed hlegible hid h [] p
      rw [itemsFrom_eq]
      generalize (facing s _ p).next = step at hline ⊢
      obtain ⟨item, t⟩ := step
      obtain rfl : item = some (.error e) := hline
      rfl

end DeclarationReader

end TypeLang
