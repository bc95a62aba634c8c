import Mathlib
import TypeLang.Proofs.TypeExpr.Grammar

/-!
# Printing what was read

A type that was read is printed without blanks, with its variables marked and with the marks left
out that lowercase names do not need. It is read again from this text, unless a name whose mark was
left out is taken for something else there: `parse_text_iff` says that this is the only way to lose
something, and `not_parse_text_bare_int` that it happens.
-/

namespace TypeLang

theorem QualifiedName.distinct_nil_iff {category : Category} {n : QualifiedName}
    (hlower : n.isLowercase = true) : n.Distinct category [] ↔
      (n.path = [] → Primitive.ofKeyword? n.name.toList = none) := by
  have hvariable : n.name ≠ "X" := by
    intro hname
    rw [QualifiedName.isLowercase, hname] at hlower
    exact absurd hlower (by decide)
  unfold QualifiedName.Distinct
  simp [hvariable]

namespace TypeExpr

variable {category : Category} {declared : List String} {t : TypeExpr} {n : QualifiedName}

/-- A lowercase name is printed without a mark, wherever it stands in a type. -/
theorem Spells.mark_not_mem_text {text : List Char} (h : Spells category declared text t)
    (hn : n ∈ t.names) (hlower : n.isLowercase = true) : '%' ∉ t.text.toList := by
  induction h with
  | blanks _ _ ih => exact ih hn
  | @flag word digits text bit t identifier _ _ _ ih =>
      have hword : '%' ∉ word := not_mem_of_isIdentifier identifier (by decide)
      have hbit : '%' ∉ (toString bit.val).toList :=
        not_mem_of_isIdentifier (Flag.isIdentifier_bit bit) (by decide)
      rw [toList_text_flag, String.toList_ofList]
      simp only [List.mem_append, List.mem_cons, not_or]
      exact ⟨hword, by decide, hbit, by decide, ih hn⟩
  | @vector text t boxed _ _ ih =>
      rw [toList_text_vector]
      cases boxed <;> simp [ih hn]
  | @named m marked valid _ =>
      obtain rfl := List.mem_singleton.mp hn
      rw [toList_text_named, hlower, Bool.not_true, Bool.and_false]
      exact QualifiedName.not_mem_fullName valid (by decide) (by decide)
  | _ => cases hn

section

variable (hdeclared : ∀ v ∈ declared, isIdentifier v.toList = true)

include hdeclared

theorem Spells.legible {text : List Char} (h : Spells category declared text t)
    (hnames : ∀ n ∈ t.names, n.isLowercase = true → n.Distinct category declared) :
    t.Legible category declared := by
  induction h with
  | blanks _ _ ih => exact ih hnames
  | keyword => trivial
  | flag identifier _ _ _ ih =>
      refine ⟨?_, ih hnames⟩
      rw [String.toList_ofList]
      exact identifier
  | vector _ _ ih => exact ih hnames
  | markedVariable method identifier =>
      refine ⟨method, ?_⟩
      rw [String.toList_ofList]
      exact identifier
  | knownVariable method known =>
      refine ⟨method, ?_⟩
      rcases known with rfl | hmem
      · decide
      · exact hdeclared _ hmem
  | @named n marked valid distinct =>
      refine ⟨valid, fun hlower => by rw [hlower, Bool.or_true], ?_⟩
      rintro (hlower | hplain)
      · exact hnames n (List.mem_singleton_self n) hlower
      · exact distinct (Bool.or_eq_false_iff.mp hplain).1

/-- A type that was read is read again from its text, if and only if no name is taken for something
else once it has no mark. -/
theorem parse_text_iff_distinct {text : String} (h : parse category declared text = .ok t) :
    parse category declared t.text = .ok t ↔
      ∀ n ∈ t.names, n.isLowercase = true → n.Distinct category declared := by
  have hspells : Spells category declared text.toList t := spells_of_parseChars h
  constructor
  · intro hagain n hn hlower
    obtain ⟨bare, hpart⟩ := mem_names_iff_parts.mp hn
    have hmark := hspells.mark_not_mem_text hn hlower
    exact ((spells_of_parseChars hagain).of_named_mem hpart).2.2 hmark
  · intro hnames
    exact parse_text hdeclared ⟨wellFormed_of_parseChars h, hspells.legible hdeclared hnames⟩

end

/-- A type that was read is read again from its text, if and only if no lowercase name without a
namespace in it spells a keyword. -/
theorem parse_text_iff {text : String} (h : parse category [] text = .ok t) :
    parse category [] t.text = .ok t ↔ ∀ n ∈ t.names, n.isLowercase = true → n.path = [] →
      Primitive.ofKeyword? n.name.toList = none := by
  rw [parse_text_iff_distinct (List.forall_mem_nil _) h]
  exact forall₃_congr fun n _ hlower => QualifiedName.distinct_nil_iff hlower

/-- The gated vector of bare files is printed with the shortest number of its bit. -/
theorem parse_text_iff_files :
    parse .method [] "flags.07?Vector<%upload.File>" = .ok files ∧
      files.text = "flags.7?Vector<%upload.File>" ∧ parse .method [] files.text = .ok files := by
  refine ⟨parse_files, by decide +kernel, (parse_text_iff parse_files).mpr fun n hn hlower => ?_⟩
  rw [List.mem_singleton.mp hn] at hlower
  exact absurd hlower (by decide)

/-- A bare name that spells a keyword is printed without its mark, and is the keyword's type when it
is read again. -/
theorem not_parse_text_bare_int :
    ∃ t, parse .constructor [] "%int" = .ok t ∧ t.text = "int" ∧
      parse .constructor [] t.text = .ok (.primitive .int) ∧ t ≠ .primitive .int := by
  refine ⟨.named ⟨[], "int"⟩ true, ?_, by decide +kernel, ?_, nofun⟩
  · unfold parse parseChars
    rfl
  · unfold parse parseChars
    rfl

end TypeExpr

end TypeLang
