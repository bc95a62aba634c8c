import TypeLang.Proofs.Plan.CommonFields
import TypeLang.Proofs.Plan.Reordering

/-!
# Interfaces

Siblings of which some have parameters are represented by an interface. Its common fields are the
fields that all siblings declare, as name and type without a flag, in the order of the first sibling
(`interface_exact`). Comparing goes on with the first parameter of a sibling that is the same field,
so that a flag on a second one would not be seen; if no sibling repeats a name there is none. A
flags word is told by its type as it stands, so that it matters which sibling is first if a word is
behind a flag. No type that was read has one there.
-/

namespace TypeLang

namespace Declaration

def Declares (d : Declaration) (name : String) (type : TypeExpr) : Prop :=
  ∃ q ∈ d.params, q.name = name ∧ q.type.erased = type

def Gates (d : Declaration) (name : String) (type : TypeExpr) : Prop :=
  ∃ q ∈ d.params, q.name = name ∧ q.type.erased = type ∧ q.type.flag?.isSome

/-- No flags word is behind a flag. -/
def WordsUngated (d : Declaration) : Prop :=
  ∀ q ∈ d.params, q.type.erased = .primitive .flags → q.type = .primitive .flags

instance (d : Declaration) (name : String) (type : TypeExpr) : Decidable (d.Declares name type) :=
  inferInstanceAs (Decidable (∃ q ∈ d.params, q.name = name ∧ q.type.erased = type))

instance (d : Declaration) : Decidable d.WordsUngated :=
  inferInstanceAs (Decidable (∀ q ∈ d.params, _ → _))

theorem WellTyped.wordsUngated {d : Declaration} (h : d.WellTyped) : d.WordsUngated := by
  intro q hq hword
  apply (h q hq).resolve_right
  rw [hword]
  exact fun hplain => hplain rfl

variable {d : Declaration} {q r : Parameter}

theorem mem_of_find?_sameField (h : d.params.find? (·.sameField q) = some r) :
    r ∈ d.params ∧ r.name = q.name ∧ r.type.erased = q.type.erased := by
  have hsame := List.find?_some h
  simp only [Parameter.sameField, Bool.and_eq_true, beq_iff_eq] at hsame
  exact ⟨List.mem_of_find?_eq_some h, hsame⟩

theorem exists_find?_sameField (h : d.Declares q.name q.type.erased) :
    ∃ r, d.params.find? (·.sameField q) = some r := by
  obtain ⟨r, hr, hname, htype⟩ := h
  apply Option.isSome_iff_exists.mp
  rw [List.find?_isSome]
  exact ⟨r, hr, by simp [Parameter.sameField, hname, htype]⟩

/-- If no name is repeated, a parameter is the only one that may gate its field. -/
theorem gates_iff_of_mem (hnames : (d.params.map (·.name)).Nodup) (hr : r ∈ d.params) :
    d.Gates r.name r.type.erased ↔ r.type.flag?.isSome := by
  constructor
  · rintro ⟨other, hother, hname, -, hflag⟩
    have hsame : other = r := List.inj_on_of_nodup_map hnames hother hr hname
    rwa [← hsame]
  · exact fun hflag => ⟨r, hr, rfl, rfl, hflag⟩

theorem gates_iff_of_find?_sameField (hnames : (d.params.map (·.name)).Nodup)
    (h : d.params.find? (·.sameField q) = some r) :
    d.Gates q.name q.type.erased ↔ r.type.flag?.isSome := by
  obtain ⟨hr, hname, htype⟩ := mem_of_find?_sameField h
  rw [← hname, ← htype]
  exact gates_iff_of_mem hnames hr

end Declaration

/-! ## One field -/

/-- What the siblings say of a field that all of them have: it is no flags word, each declares it,
and it is optional if it is not a `true` and one of them puts it behind a flag. -/
structure CommonField.IsCommon (f : CommonField) (ds : List Declaration) : Prop where
  word : f.type ≠ .primitive .flags
  shared : ∀ d ∈ ds, d.Declares f.name f.type
  optional : f.optional = true ↔
    f.type ≠ .primitive .trueLiteral ∧ ∃ d ∈ ds, d.Gates f.name f.type

theorem CommonField.IsCommon.perm {f : CommonField} {ds es : List Declaration} (h : f.IsCommon ds)
    (hperm : ds.Perm es) : f.IsCommon es where
  word := h.word
  shared d hd := h.shared d (hperm.mem_iff.mpr hd)
  optional := by simpa only [hperm.mem_iff] using h.optional

namespace Representation

variable {key : TypeKey} {first : Declaration} {siblings : List Declaration} {q : Parameter}
  {f : CommonField}

theorem siblingFields?_of_declares (hnames : ∀ d ∈ siblings, (d.params.map (·.name)).Nodup)
    (h : ∀ d ∈ siblings, d.Declares q.name q.type.erased) :
    ∃ others, siblingFields? q siblings = some others ∧
      ((∃ r ∈ others, r.type.flag?.isSome) ↔ ∃ d ∈ siblings, d.Gates q.name q.type.erased) := by
  induction siblings with
  | nil => exact ⟨[], rfl, by simp⟩
  | cons d siblings ih =>
      obtain ⟨hd, hsiblings⟩ := List.forall_mem_cons.mp h
      obtain ⟨hnamesd, hnames⟩ := List.forall_mem_cons.mp hnames
      obtain ⟨r, hr⟩ := Declaration.exists_find?_sameField hd
      obtain ⟨others, hothers, hflags⟩ := ih hnames hsiblings
      refine ⟨r :: others, ?_, ?_⟩
      · rw [siblingFields?] at hothers ⊢
        rw [List.mapM_cons, hr, hothers]
        rfl
      · rw [List.exists_mem_cons_iff, List.exists_mem_cons_iff, hflags,
          Declaration.gates_iff_of_find?_sameField hnamesd hr]

theorem declares_of_commonField? (h : commonField? q siblings = some f) :
    q.type ≠ .primitive .flags ∧ ∀ d ∈ siblings, d.Declares q.name q.type.erased := by
  obtain ⟨hword, hown, hothers⟩ := matches_of_commonField? h
  refine ⟨hword, fun d hd => ?_⟩
  obtain ⟨r, hr, hmatches⟩ := hothers d hd
  exact ⟨r, hr, hmatches.name.trans hown.name.symm, hmatches.erased.trans hown.erased.symm⟩

theorem exists_commonField? (hq : q ∈ first.params)
    (hnames : ∀ d ∈ first :: siblings, (d.params.map (·.name)).Nodup)
    (hword : q.type ≠ .primitive .flags)
    (hshared : ∀ d ∈ siblings, d.Declares q.name q.type.erased) :
    ∃ f, commonField? q siblings = some f ∧ (f.name, f.type) = (q.name, q.type.erased) ∧
      (f.optional = true ↔ f.type ≠ .primitive .trueLiteral ∧
        ∃ d ∈ first :: siblings, d.Gates f.name f.type) := by
  obtain ⟨hfirst, hrest⟩ := List.forall_mem_cons.mp hnames
  obtain ⟨others, hothers, hflags⟩ := siblingFields?_of_declares hrest hshared
  have hnotword : ¬q.type.isFlagsWord = true := by simpa [TypeExpr.isFlagsWord] using hword
  refine ⟨_, by rw [commonField?, if_neg hnotword, hothers]; rfl, rfl, ?_⟩
  have hown : first.Gates q.name q.type.erased ↔ q.type.flag?.isSome :=
    Declaration.gates_iff_of_mem hfirst hq
  have hany : (q :: others).any (·.type.flag?.isSome) = true ↔
      ∃ d ∈ first :: siblings, d.Gates q.name q.type.erased := by
    rw [List.any_eq_true, List.exists_mem_cons_iff, List.exists_mem_cons_iff, hown, hflags]
  have htrue : (!q.type.isTrueLiteral) = true ↔ q.type.erased ≠ .primitive .trueLiteral := by
    simp [TypeExpr.isTrueLiteral]
  rw [Bool.and_eq_true, hany, htrue]
  exact and_comm

/-! ## All fields -/

/-- The common fields of siblings are those that the first one declares and all others have, too, in
its order. -/
structure Shares (first : Declaration) (siblings : List Declaration) (fields : List CommonField) :
    Prop where
  pairs : fields.map (fun f => (f.name, f.type)) =
    (first.params.filter fun q => q.type ≠ .primitive .flags ∧
      ∀ d ∈ first :: siblings, d.Declares q.name q.type.erased).map fun q => (q.name, q.type.erased)
  distinct : (fields.map (·.name)).Nodup
  optional : ∀ f ∈ fields, f.optional = true ↔
    f.type ≠ .primitive .trueLiteral ∧ ∃ d ∈ first :: siblings, d.Gates f.name f.type

section

variable {fields : List CommonField}

theorem Shares.exists_pair_iff (h : Shares first siblings fields) (name : String)
    (type : TypeExpr) :
    (∃ f ∈ fields, (f.name, f.type) = (name, type)) ↔
      ∃ q ∈ first.params, q.type ≠ .primitive .flags ∧ q.name = name ∧ q.type.erased = type ∧
        ∀ d ∈ first :: siblings, d.Declares name type := by
  rw [← List.mem_map, h.pairs, List.mem_map]
  simp only [List.mem_filter, decide_eq_true_eq, Prod.mk.injEq]
  constructor
  · rintro ⟨q, ⟨hq, hword, hshared⟩, rfl, rfl⟩
    exact ⟨q, hq, hword, rfl, rfl, hshared⟩
  · rintro ⟨q, hq, hword, rfl, rfl, hshared⟩
    exact ⟨q, ⟨hq, hword, hshared⟩, rfl, rfl⟩

/-- Flags words apart, the common fields do not depend on which sibling is first. -/
theorem Shares.mem_iff (h : Shares first siblings fields) :
    f ∈ fields ∧ f.type ≠ .primitive .flags ↔ f.IsCommon (first :: siblings) := by
  constructor
  · rintro ⟨hf, hword⟩
    obtain ⟨-, -, -, -, -, hshared⟩ := (h.exists_pair_iff f.name f.type).mp ⟨f, hf, rfl⟩
    exact ⟨hword, hshared, h.optional f hf⟩
  · rintro ⟨hword, hshared, hoptional⟩
    refine ⟨?_, hword⟩
    obtain ⟨q, hq, hname, htype⟩ := hshared first List.mem_cons_self
    have hplain : q.type ≠ .primitive .flags := by
      intro hflags
      apply hword
      rw [← htype, hflags]
      rfl
    obtain ⟨g, hg, hsame⟩ :=
      (h.exists_pair_iff f.name f.type).mpr ⟨q, hq, hplain, hname, htype, hshared⟩
    obtain ⟨name, type, optional⟩ := f
    obtain ⟨rfl, rfl⟩ := Prod.mk.inj hsame
    have hequal : g.optional = optional := by
      rw [Bool.eq_iff_iff, h.optional g hg]
      exact hoptional.symm
    rwa [← hequal]

theorem Shares.type_ne_flags (h : Shares first siblings fields) (hwords : first.WordsUngated)
    (hf : f ∈ fields) : f.type ≠ .primitive .flags := by
  obtain ⟨q, hq, hword, -, htype, -⟩ := (h.exists_pair_iff f.name f.type).mp ⟨f, hf, rfl⟩
  rw [← htype]
  exact fun hflags => hword (hwords q hq hflags)

variable {first' : Declaration} {siblings' : List Declaration} {fields' : List CommonField}

theorem Shares.mem_of_perm (h : Shares first siblings fields) (h' : Shares first' siblings' fields')
    (hperm : (first :: siblings).Perm (first' :: siblings')) (hword : f.type ≠ .primitive .flags)
    (hf : f ∈ fields) : f ∈ fields' := by
  have hcommon : f.IsCommon (first' :: siblings') := (h.mem_iff.mp ⟨hf, hword⟩).perm hperm
  exact (h'.mem_iff.mpr hcommon).1

end

theorem pairs_commonFields (hnames : ∀ d ∈ first :: siblings, (d.params.map (·.name)).Nodup) :
    (first.params.filterMap (commonField? · siblings)).map (fun f => (f.name, f.type)) =
      (first.params.filter fun q => q.type ≠ .primitive .flags ∧
        ∀ d ∈ first :: siblings, d.Declares q.name q.type.erased).map
          fun q => (q.name, q.type.erased) := by
  rw [List.map_filterMap, ← List.filterMap_eq_map, List.filterMap_filter]
  apply List.filterMap_congr
  intro q hq
  -- The first sibling declares its own parameters, so that only the others are asked.
  have hkept : decide (q.type ≠ .primitive .flags ∧
      ∀ d ∈ first :: siblings, d.Declares q.name q.type.erased) = true ↔
        q.type ≠ .primitive .flags ∧ ∀ d ∈ siblings, d.Declares q.name q.type.erased := by
    rw [decide_eq_true_eq, List.forall_mem_cons]
    exact and_congr_right fun _ => and_iff_right ⟨q, hq, rfl, rfl⟩
  by_cases hcommon : q.type ≠ .primitive .flags ∧
      ∀ d ∈ siblings, d.Declares q.name q.type.erased
  · obtain ⟨f, hf, hpair, -⟩ := exists_commonField? hq hnames hcommon.1 hcommon.2
    rw [if_pos (hkept.mpr hcommon), hf, Option.map_some, hpair]
    rfl
  · have hnone : commonField? q siblings = none :=
      Option.eq_none_iff_forall_ne_some.mpr fun f hf => hcommon (declares_of_commonField? hf)
    rw [if_neg (mt hkept.mp hcommon), hnone, Option.map_none]

/-- The names of the common fields are among those of the first sibling, in its order. -/
theorem names_commonFields_sublist
    (hnames : ∀ d ∈ first :: siblings, (d.params.map (·.name)).Nodup) :
    ((first.params.filterMap (commonField? · siblings)).map (·.name)).Sublist
      (first.params.map (·.name)) :=
  calc
    (first.params.filterMap (commonField? · siblings)).map (·.name)
        = ((first.params.filterMap (commonField? · siblings)).map
            fun f => (f.name, f.type)).map (·.1) := by
          rw [List.map_map]
          rfl
    _ = (first.params.filter fun q => q.type ≠ .primitive .flags ∧
          ∀ d ∈ first :: siblings, d.Declares q.name q.type.erased).map (·.name) := by
          rw [pairs_commonFields hnames, List.map_map]
          rfl
    List.Sublist _ (first.params.map (·.name)) := List.filter_sublist.map _

theorem shares_commonFields (hnames : ∀ d ∈ first :: siblings, (d.params.map (·.name)).Nodup) :
    Shares first siblings (first.params.filterMap (commonField? · siblings)) where
  pairs := pairs_commonFields hnames
  distinct := (names_commonFields_sublist hnames).nodup (hnames first List.mem_cons_self)
  optional f hf := by
    obtain ⟨q, hq, hcommon⟩ := List.mem_filterMap.mp hf
    obtain ⟨hword, hshared⟩ := declares_of_commonField? hcommon
    obtain ⟨g, hg, -, hoptional⟩ := exists_commonField? hq hnames hword hshared
    obtain rfl := Option.some.inj (hcommon.symm.trans hg)
    exact hoptional

/-! ## Interfaces of siblings -/

theorem ofConstructors_of_params (hmany : siblings ≠ [])
    (hparams : ∃ d ∈ first :: siblings, d.params ≠ []) :
    ofConstructors key (first :: siblings) = .ok (ofInterface key first siblings) := by
  cases siblings with
  | nil => exact absurd rfl hmany
  | cons second rest =>
      have hall : ¬(first :: second :: rest).all (·.params.isEmpty) = true := by
        intro hempty
        obtain ⟨d, hd, hsome⟩ := hparams
        exact hsome (List.isEmpty_iff.mp (List.all_eq_true.mp hempty d hd))
      rw [ofConstructors_of_several, if_neg hall]

/-- Several constructors, some with parameters and none with two of one name, are represented by an
interface. Its members are the constructors, in order, and its fields are those that all of them
share. In every order the constructors share the same fields that are no flags words, and if no word
is behind a flag there are no others. -/
theorem interface_exact (key : TypeKey) (hmany : siblings ≠ [])
    (hparams : ∃ d ∈ first :: siblings, d.params ≠ [])
    (hnames : ∀ d ∈ first :: siblings, (d.params.map (·.name)).Nodup) :
    ∃ fields, ofConstructors key (first :: siblings) = .ok (.interface fields
        ((first :: siblings).map fun d => ⟨d.id, d.fullName, d.constructorName key false⟩)) ∧
      Shares first siblings fields ∧
      (∀ f, f ∈ fields ∧ f.type ≠ .primitive .flags ↔ f.IsCommon (first :: siblings)) ∧
      ∀ others, (first :: siblings).Perm others → ∃ fields' members',
        ofConstructors key others = .ok (.interface fields' members') ∧
        (∀ f, f.type ≠ .primitive .flags → (f ∈ fields' ↔ f ∈ fields)) ∧
        ((∀ d ∈ first :: siblings, d.WordsUngated) → ∀ f, f ∈ fields' ↔ f ∈ fields) := by
  have hshares := shares_commonFields hnames
  refine ⟨_, ofConstructors_of_params hmany hparams, hshares, fun f => hshares.mem_iff, ?_⟩
  intro others hperm
  cases others with
  | nil => cases hperm.eq_nil
  | cons first' siblings' =>
      have hmany' : siblings' ≠ [] := by
        intro hnil
        have hlength := hperm.length_eq
        rw [hnil, List.length_cons, List.length_singleton] at hlength
        exact hmany (List.eq_nil_of_length_eq_zero (by omega))
      simp only [hperm.mem_iff] at hparams hnames
      have hshares' := shares_commonFields hnames
      refine ⟨_, _, ofConstructors_of_params hmany' hparams, ?_, ?_⟩
      · intro f hword
        exact ⟨hshares'.mem_of_perm hshares hperm.symm hword,
          hshares.mem_of_perm hshares' hperm hword⟩
      · intro hwords f
        constructor
        · intro hf
          have hfirst' : first'.WordsUngated := hwords first' (hperm.mem_iff.mpr List.mem_cons_self)
          exact hshares'.mem_of_perm hshares hperm.symm (hshares'.type_ne_flags hfirst' hf) hf
        · intro hf
          have hfirst : first.WordsUngated := hwords first List.mem_cons_self
          exact hshares.mem_of_perm hshares' hperm (hshares.type_ne_flags hfirst hf) hf

end Representation

/-! ## Gated words -/

namespace Declaration

/-- It has a flags word behind a flag, which no declaration that is read has. -/
def gatedWord : Declaration :=
  ⟨.constructor, 1, ⟨[], "gated"⟩,
    [⟨"flags", .primitive .flags⟩, ⟨"more", .flag .lowest (.primitive .flags)⟩],
    .named ⟨[], "Words"⟩ false⟩

def plainWord : Declaration :=
  ⟨.constructor, 2, ⟨[], "plain"⟩, [⟨"flags", .primitive .flags⟩, ⟨"more", .primitive .flags⟩],
    .named ⟨[], "Words"⟩ false⟩

end Declaration

/-- A gated word is a common field if its declaration is the first one, and is none otherwise. -/
theorem Representation.fields_of_gatedWord :
    (∀ d ∈ [Declaration.gatedWord, .plainWord], (d.params.map (·.name)).Nodup) ∧
      ∃ members members',
        ofConstructors ⟨"", [], "Words"⟩ [.gatedWord, .plainWord] =
          .ok (.interface [⟨"more", .primitive .flags, true⟩] members) ∧
        ofConstructors ⟨"", [], "Words"⟩ [.plainWord, .gatedWord] =
          .ok (.interface [] members') :=
  ⟨by decide, _, _, rfl, rfl⟩

/-! ## Photos and videos -/

namespace Declaration

def photo : Declaration :=
  ⟨.constructor, 1, ⟨[], "photo"⟩, [⟨"flags", .primitive .flags⟩,
    ⟨"caption", .flag .lowest (.primitive .string)⟩, ⟨"date", .primitive .int⟩,
    ⟨"spoiler", .flag ⟨"flags", ⟨1, by decide⟩⟩ (.primitive .trueLiteral)⟩],
    .named ⟨[], "Media"⟩ false⟩

def video : Declaration :=
  ⟨.constructor, 2, ⟨[], "video"⟩, [⟨"flags", .primitive .flags⟩, ⟨"date", .primitive .int⟩,
    ⟨"caption", .primitive .string⟩, ⟨"length", .primitive .double⟩,
    ⟨"spoiler", .flag .lowest (.primitive .trueLiteral)⟩], .named ⟨[], "Media"⟩ false⟩

end Declaration

namespace Representation

/-- Photos and videos have a date and may have a caption, whichever is declared first. -/
theorem interface_exact_media :
    ∃ fields members, ofConstructors ⟨"", [], "Media"⟩ [.photo, .video] =
        .ok (.interface fields members) ∧
      fields = [⟨"caption", .primitive .string, true⟩, ⟨"date", .primitive .int, false⟩,
        ⟨"spoiler", .primitive .trueLiteral, false⟩] ∧
      ∃ fields' members', ofConstructors ⟨"", [], "Media"⟩ [.video, .photo] =
        .ok (.interface fields' members') ∧ ∀ f, f ∈ fields' ↔ f ∈ fields := by
  obtain ⟨fields, hphoto, -, -, horder⟩ := @interface_exact .photo [.video] ⟨"", [], "Media"⟩
    (by decide) (by decide) (by decide)
  obtain ⟨fields', members', hvideo, -, hsame⟩ := horder [.video, .photo] (.swap ..)
  refine ⟨fields, _, hphoto, ?_, fields', members', hvideo, hsame (by decide)⟩
  cases hphoto
  rfl

end Representation

end TypeLang
