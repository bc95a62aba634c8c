import TypeLang.Proofs.Name.Words
import TypeLang.Proofs.Plan.Reordering

/-!
# Enums

Several constructors without parameters are represented by an enum, each by what is left of its name
behind the beginning that all names have in common. That works exactly if the names are distinct and
none is the beginning of all others (`enum_exact`). What is left is then never empty and never
repeated, but its constants may be: they are written without regard to case and separators.
`constants_distinct_iff` says when they can be told apart.
-/

namespace TypeLang

/-! ## Names and their common beginning -/

namespace Casing

structure IsCommonPrefix (start : String) (names : List String) : Prop where
  isPrefix : ∀ name ∈ names, start.toList <+: name.toList
  longest : ∀ other : String, (∀ name ∈ names, other.toList <+: name.toList) →
    other.toList <+: start.toList

theorem isCommonPrefix_commonPrefix {names : List String} (hnames : names ≠ []) :
    IsCommonPrefix (commonPrefix names) names where
  isPrefix := (isPrefix_commonPrefix_iff hnames).mp List.prefix_rfl
  longest _ h := (isPrefix_commonPrefix_iff hnames).mpr h

/-- No name is repeated, and none is the beginning of all others. -/
structure Separable (names : List String) : Prop where
  distinct : names.Nodup
  proper : ∀ name ∈ names, ∃ other ∈ names, ¬name.toList <+: other.toList

instance (names : List String) : Decidable (Separable names) :=
  decidable_of_iff
    (names.Nodup ∧ ∀ name ∈ names, ∃ other ∈ names, ¬name.toList <+: other.toList)
    ⟨fun h => ⟨h.1, h.2⟩, fun h => ⟨h.distinct, h.proper⟩⟩

end Casing

def Declaration.bare (id : UInt32) (name type : String) : Declaration :=
  ⟨.constructor, id, ⟨[], name⟩, [], .named ⟨[], type⟩ false⟩

namespace Representation

open Casing

variable {key : TypeKey} {ds : List Declaration} {d : Declaration} {members : List EnumMember}

theorem commonPrefix_append_label (hd : d ∈ ds) :
    (commonPrefix (ds.map (·.fullName))).toList ++ label ds d = d.fullName.toList := by
  have hname : d.fullName ∈ ds.map (·.fullName) := List.mem_map_of_mem hd
  have hbegins := (isCommonPrefix_commonPrefix (List.ne_nil_of_mem hname)).isPrefix _ hname
  exact List.prefix_iff_eq_append.mp hbegins

theorem label_eq_nil_iff (hd : d ∈ ds) :
    label ds d = [] ↔ ∀ name ∈ ds.map (·.fullName), d.fullName.toList <+: name.toList := by
  have hname : d.fullName ∈ ds.map (·.fullName) := List.mem_map_of_mem hd
  have hjoin := commonPrefix_append_label hd
  rw [← isPrefix_commonPrefix_iff (List.ne_nil_of_mem hname)]
  constructor
  · intro hlabel
    rw [← hjoin, hlabel, List.append_nil]
  · intro hbegins
    exact List.drop_eq_nil_of_le hbegins.length_le

theorem label_inj {e : Declaration} (hd : d ∈ ds) (he : e ∈ ds) :
    label ds d = label ds e ↔ d.fullName = e.fullName := by
  rw [← String.toList_inj, ← commonPrefix_append_label hd, ← commonPrefix_append_label he,
    List.append_cancel_left_eq]

/-- The labels are accepted exactly if the names can be told apart by them. -/
theorem labels_iff_separable :
    ((ds.map (label ds)).all (!·.isEmpty) = true ∧ (ds.map (label ds)).Nodup) ↔
      Separable (ds.map (·.fullName)) := by
  have hdistinct : (ds.map (label ds)).Nodup ↔ (ds.map (·.fullName)).Nodup := by
    rw [List.Nodup, List.pairwise_map, List.Nodup, List.pairwise_map]
    apply List.Pairwise.iff_of_mem
    intro d e hd he
    exact not_congr (label_inj hd he)
  have hproper : (ds.map (label ds)).all (!·.isEmpty) = true ↔
      ∀ name ∈ ds.map (·.fullName), ∃ other ∈ ds.map (·.fullName),
        ¬name.toList <+: other.toList := by
    simp only [List.all_map, List.all_eq_true, Function.comp_apply, Bool.not_eq_true',
      List.isEmpty_eq_false_iff, List.forall_mem_map]
    apply forall₂_congr
    intro d hd
    rw [ne_eq, label_eq_nil_iff hd]
    push Not
    rfl
  rw [hdistinct, hproper]
  exact ⟨fun h => ⟨h.2, h.1⟩, fun h => ⟨h.proper, h.distinct⟩⟩

/-! ## Members -/

structure StandsFor (start : String) (d : Declaration) (m : EnumMember) : Prop where
  id : m.id = d.id
  name : m.name = d.fullName
  label_ne_empty : m.label ≠ ""
  completes : start ++ m.label = d.fullName

theorem standsFor_enumMember (h : Separable (ds.map (·.fullName))) (hd : d ∈ ds) :
    StandsFor (commonPrefix (ds.map (·.fullName))) d (enumMember d (label ds d)) where
  id := rfl
  name := rfl
  label_ne_empty := by
    change String.ofList (label ds d) ≠ ""
    rw [ne_eq, String.ofList_eq_empty_iff]
    intro hlabel
    obtain ⟨other, hother, hends⟩ := h.proper d.fullName (List.mem_map_of_mem hd)
    exact hends ((label_eq_nil_iff hd).mp hlabel other hother)
  completes := by
    change _ ++ String.ofList (label ds d) = _
    rw [← String.toList_inj, String.toList_append, String.toList_ofList,
      commonPrefix_append_label hd]

theorem nodup_labels (h : Separable (ds.map (·.fullName))) :
    ((ds.map fun d => enumMember d (label ds d)).map (·.label)).Nodup := by
  have hlabels := (labels_iff_separable.mpr h).2
  have hmap : (ds.map fun d => enumMember d (label ds d)).map (·.label) =
      (ds.map (label ds)).map String.ofList := by
    simp only [List.map_map]
    rfl
  rw [hmap]
  exact hlabels.map fun _ _ => String.ofList_injective

theorem ofEnum_of_separable (h : Separable (ds.map (·.fullName))) :
    ofEnum key ds = .ok (enum (ds.map fun d => enumMember d (label ds d))) := by
  rw [ofEnum_eq, if_pos (labels_iff_separable.mpr h)]

theorem ofEnum_of_not_separable (h : ¬Separable (ds.map (·.fullName))) :
    ofEnum key ds = .error (.enumLabels key.text (ds.map (·.fullName))) := by
  rw [ofEnum_eq, if_neg (mt labels_iff_separable.mp h)]

theorem ofConstructors_of_parameterless (hlength : 2 ≤ ds.length)
    (hparams : ∀ d ∈ ds, d.params = []) : ofConstructors key ds = ofEnum key ds := by
  have hall : ds.all (·.params.isEmpty) = true :=
    List.all_eq_true.mpr fun d hd => List.isEmpty_iff.mpr (hparams d hd)
  match ds, hlength with
  | first :: second :: rest, _ => rw [ofConstructors_of_several, if_pos hall]

theorem ofEnum_of_ofConstructors (h : ofConstructors key ds = .ok (.enum members)) :
    ofEnum key ds = .ok (.enum members) := by
  match ds, h with
  | first :: second :: rest, h =>
      rw [ofConstructors_of_several] at h
      split at h
      · exact h
      · cases h

theorem eq_members_of_ofConstructors (h : ofConstructors key ds = .ok (.enum members)) :
    Separable (ds.map (·.fullName)) ∧ members = ds.map fun d => enumMember d (label ds d) := by
  have henum := ofEnum_of_ofConstructors h
  by_cases hsep : Separable (ds.map (·.fullName))
  · rw [ofEnum_of_separable hsep] at henum
    cases henum
    exact ⟨hsep, rfl⟩
  · rw [ofEnum_of_not_separable hsep] at henum
    cases henum

/-- The common prefix of names is the longest text that all begin with, in every order of them.
Several constructors without parameters make an enum exactly if their names are separable, with a
member for each in their order, whose distinct labels complete the common prefix to the names. If
not, the error lists all names. -/
theorem enum_exact (key : TypeKey) :
    (∀ names : List String, names ≠ [] → IsCommonPrefix (commonPrefix names) names ∧
      ∀ others, names.Perm others → commonPrefix others = commonPrefix names) ∧
    ∀ ds : List Declaration, 2 ≤ ds.length → (∀ d ∈ ds, d.params = []) →
      ((∃ r, ofConstructors key ds = .ok r) ↔ Separable (ds.map (·.fullName))) ∧
      (Separable (ds.map (·.fullName)) → ∃ members,
        ofConstructors key ds = .ok (.enum members) ∧
        List.Forall₂ (StandsFor (commonPrefix (ds.map (·.fullName)))) ds members ∧
        (members.map (·.label)).Nodup) ∧
      (¬Separable (ds.map (·.fullName)) →
        ofConstructors key ds = .error (.enumLabels key.text (ds.map (·.fullName)))) := by
  constructor
  · intro names hnames
    exact ⟨isCommonPrefix_commonPrefix hnames, fun others h => (commonPrefix_perm h).symm⟩
  · intro ds hlength hparams
    have hfails : ¬Separable (ds.map (·.fullName)) →
        ofConstructors key ds = .error (.enumLabels key.text (ds.map (·.fullName))) := by
      intro hsep
      rw [ofConstructors_of_parameterless hlength hparams, ofEnum_of_not_separable hsep]
    have hworks : Separable (ds.map (·.fullName)) →
        ofConstructors key ds = .ok (.enum (ds.map fun d => enumMember d (label ds d))) := by
      intro hsep
      rw [ofConstructors_of_parameterless hlength hparams, ofEnum_of_separable hsep]
    refine ⟨⟨?_, fun hsep => ⟨_, hworks hsep⟩⟩, ?_, hfails⟩
    · rintro ⟨r, hr⟩
      by_contra hsep
      rw [hfails hsep] at hr
      cases hr
    · intro hsep
      refine ⟨_, hworks hsep, ?_, nodup_labels hsep⟩
      rw [List.forall₂_map_right_iff, List.forall₂_same]
      exact fun d hd => standsFor_enumMember hsep hd

/-- Names begin alike by their characters, also where the next two share a byte. Users and chats are
told apart by what is behind `peer`. Of a mere `peer` nothing is left. -/
theorem enum_exact_peers :
    IsCommonPrefix "g" ["gé", "gè"] ∧
    (∃ members, ofConstructors ⟨"", [], "Peer"⟩
        [.bare 1 "peerUser" "Peer", .bare 2 "peerChat" "Peer"] = .ok (.enum members) ∧
      members.map (·.label) = ["User", "Chat"]) ∧
    ofConstructors ⟨"", [], "Peer"⟩ [.bare 1 "peer" "Peer", .bare 2 "peerUser" "Peer"] =
      .error (.enumLabels "Peer" ["peer", "peerUser"]) := by
  obtain ⟨hnames, hseveral⟩ := enum_exact ⟨"", [], "Peer"⟩
  have hletters : commonPrefix ["gé", "gè"] = "g" := by decide +kernel
  obtain ⟨-, hworks, -⟩ := hseveral [.bare 1 "peerUser" "Peer", .bare 2 "peerChat" "Peer"]
    (by decide) (by decide)
  obtain ⟨-, -, hfails⟩ := hseveral [.bare 1 "peer" "Peer", .bare 2 "peerUser" "Peer"]
    (by decide) (by decide)
  obtain ⟨members, hmembers, -⟩ := hworks (by decide +kernel)
  refine ⟨hletters ▸ (hnames _ (List.cons_ne_nil _ _)).1, ⟨members, hmembers, ?_⟩,
    hfails (by decide +kernel)⟩
  cases hmembers
  decide +kernel

/-! ## Constants -/

/-- The constants of an enum are non-empty and distinct exactly if its labels have words and are not
spelled alike, which labels that are non-empty and distinct may be. -/
theorem constants_distinct_iff (h : ofConstructors key ds = .ok (.enum members)) :
    (∀ m ∈ members, m.label ≠ "") ∧ (members.map (·.label)).Nodup ∧
    ((∀ m ∈ members, m.constant ≠ "") ∧ (members.map (·.constant)).Nodup ↔
      (∀ m ∈ members, words m.label.toList ≠ []) ∧
      (members.map fun m => spelling m.label.toList).Nodup) := by
  obtain ⟨hsep, hmembers⟩ := eq_members_of_ofConstructors h
  have hlabel : ∀ m ∈ members, m.label ≠ "" := by
    rw [hmembers, List.forall_mem_map]
    exact fun d hd => (standsFor_enumMember hsep hd).label_ne_empty
  have hconstant : ∀ m ∈ members, m.constant = screaming m.label := by
    rw [hmembers, List.forall_mem_map]
    exact fun d _ => rfl
  refine ⟨hlabel, hmembers ▸ nodup_labels hsep, and_congr ?_ ?_⟩
  · apply forall₂_congr
    intro m hm
    rw [hconstant m hm, ne_eq, screaming_eq_empty_iff]
  · rw [List.Nodup, List.pairwise_map, List.Nodup, List.pairwise_map]
    apply List.Pairwise.iff_of_mem
    intro m other hm hother
    rw [hconstant m hm, hconstant other hother, ne_eq, ne_eq,
      screaming_inj (hlabel m hm) (hlabel other hother)]

/-- `PEER_USER` and `CHAT` are different constants. -/
theorem constants_distinct_peers :
    ∃ members, ofConstructors ⟨"", [], "Peer"⟩
        [.bare 1 "typePeerUser" "Peer", .bare 2 "type_chat" "Peer"] = .ok (.enum members) ∧
      (∀ m ∈ members, words m.label.toList ≠ []) ∧
      (members.map fun m => spelling m.label.toList).Nodup ∧
      members.map (·.constant) = ["PEER_USER", "CHAT"] ∧
      (members.map (·.constant)).Nodup := by
  have hmembers : ofConstructors ⟨"", [], "Peer"⟩
      [.bare 1 "typePeerUser" "Peer", .bare 2 "type_chat" "Peer"] =
        .ok (.enum [⟨"PeerUser", "PEER_USER", 1, "typePeerUser"⟩,
          ⟨"_chat", "CHAT", 2, "type_chat"⟩]) := by
    decide +kernel
  obtain ⟨-, -, hiff⟩ := constants_distinct_iff hmembers
  obtain ⟨-, hdistinct⟩ := hiff.mpr ⟨by decide +kernel, by decide +kernel⟩
  exact ⟨_, hmembers, by decide +kernel, by decide +kernel, rfl, hdistinct⟩

/-- `colorRed` and `color_red` have the labels `Red` and `_red` and both the constant `RED`. -/
theorem repeated_constant :
    ∃ members, ofConstructors ⟨"", [], "Color"⟩
        [.bare 1 "colorRed" "Color", .bare 2 "color_red" "Color"] = .ok (.enum members) ∧
      members.map (·.label) = ["Red", "_red"] ∧
      ¬(members.map (·.constant)).Nodup := by
  refine ⟨[⟨"Red", "RED", 1, "colorRed"⟩, ⟨"_red", "RED", 2, "color_red"⟩], ?_, rfl, ?_⟩
  · decide +kernel
  · decide

end Representation

end TypeLang
