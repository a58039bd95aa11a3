import Mathlib.Data.List.Sort
import ScriptAudit.Proofs.Check.Agreement
import ScriptAudit.Yaml.Standard

/-!
# The order of phases

The check of the phases goes through the sections once and remembers only the highest phase so far.
What it reports can be told from the sections two by two: a section is reported when some section in
front of it belongs to a later phase (`lateSections`), however often phases repeat or return.
Whether a review of the phases is valid is told by issues, but can be seen from the sections too.

* `Phase.Precedes` — the order of the phases.
* `orderIssues_eq_of_bound` — the invariant: the highest phase so far stands for all sections so far.
* `phases_in_order` — what is reported about the order, and when a review is valid.
-/

namespace ScriptAudit

/-! ## The order -/

namespace Phase

/-- Whether a phase comes before another one. -/
def Precedes (p q : Phase) : Prop := [p, q].Sublist Check.phaseOrder

instance (p q : Phase) : Decidable (p.Precedes q) := inferInstanceAs (Decidable (List.Sublist _ _))

theorem precedes_iff {p q : Phase} :
    p.Precedes q ↔ ∃ r, Check.rank? p = some r ∧ ∃ k, Check.rank? q = some k ∧ r < k := by
  have hranks : p.Precedes q ↔
      (Check.rank? p).any (fun r => (Check.rank? q).any fun k => r < k) = true := by
    cases p <;> cases q <;> decide
  simp [hranks, Option.any_eq_true]

end Phase

namespace Check

/-- Whether a section stands behind a section of a later phase. -/
def IsLate (before : List Section) (s : Section) : Prop := ∃ e ∈ before, s.phase.Precedes e.phase

instance (before : List Section) (s : Section) : Decidable (IsLate before s) :=
  inferInstanceAs (Decidable (∃ e ∈ before, _))

/-- The sections that stand behind a section of a later phase. -/
def lateSections (ss : List Section) : List Section :=
  (ss.zipIdx.filter fun (s, i) => IsLate (ss.take i) s).map Prod.fst

/-- The issue of a section that stands behind a section of a later phase. -/
def orderIssue (s : Section) : Issue where
  code := "AAA004"
  message := "Section order issue: \"" ++ s.heading ++ "\" (" ++ s.phase.name ++
    ") appears after a later section in the AAA pattern."
  severity := .warning
  line := some s.first
  suggestion := some "Reorder sections to follow: Arrange → Act → Assert"

/-! ## One pass over the sections -/

/-- A bound on the ranks so far decides which phases come too late now. -/
def IsBound (highest : Nat) (before : List Section) : Prop :=
  ∀ p r, rank? p = some r → (r + 1 < highest ↔ ∃ e ∈ before, p.Precedes e.phase)

theorem isBound_nil : IsBound 0 [] := by simp [IsBound]

/-- A section without a phase changes nothing. -/
theorem IsBound.concat_of_none {highest : Nat} {before : List Section} {s : Section}
    (h : IsBound highest before) (hs : rank? s.phase = none) : IsBound highest (before ++ [s]) := by
  intro p r hp
  have hnot : ¬ p.Precedes s.phase := by simp [Phase.precedes_iff, hs]
  simp [h p r hp, hnot]

theorem IsBound.concat {highest r : Nat} {before : List Section} {s : Section}
    (h : IsBound highest before) (hs : rank? s.phase = some r) :
    IsBound (max highest (r + 1)) (before ++ [s]) := by
  intro p k hp
  have hprecedes : p.Precedes s.phase ↔ k < r := by simp [Phase.precedes_iff, hs, hp]
  have hboth : (∃ e ∈ before ++ [s], p.Precedes e.phase) ↔
      (∃ e ∈ before, p.Precedes e.phase) ∨ k < r := by
    simp [or_and_right, exists_or, hprecedes]
  rw [hboth, ← h p k hp]
  omega

/-- Behind sections whose phases are bounded, the issues are those of the late sections. -/
theorem orderIssues_eq_of_bound (before ss : List Section) {highest : Nat}
    (h : IsBound highest before) :
    orderIssues highest ss = (((ss.zipIdx before.length).filter fun (s, i) =>
      IsLate ((before ++ ss).take i) s).map Prod.fst).map orderIssue := by
  induction ss generalizing before highest with
  | nil => rfl
  | cons s ss ih =>
    have hnext {highest' : Nat} (h' : IsBound highest' (before ++ [s])) :
        orderIssues highest' ss = (((ss.zipIdx (before.length + 1)).filter fun (t, i) =>
          IsLate ((before ++ s :: ss).take i) t).map Prod.fst).map orderIssue := by
      simpa using ih (before ++ [s]) h'
    have htake : (before ++ s :: ss).take before.length = before := List.take_left
    rw [orderIssues]
    cases hs : rank? s.phase with
    | none =>
      have hnot : ¬ IsLate before s := by simp [IsLate, Phase.precedes_iff, hs]
      rw [List.zipIdx_cons, List.filter_cons_of_neg (by simpa [htake] using hnot)]
      exact hnext (h.concat_of_none hs)
    | some r =>
      have hrank : r + 1 < highest ↔ IsLate before s := h s.phase r hs
      dsimp only
      rw [hnext (h.concat hs), List.zipIdx_cons]
      by_cases hlate : IsLate before s
      · rw [if_pos (hrank.2 hlate), List.filter_cons_of_pos (by simpa [htake] using hlate)]
        rfl
      · rw [if_neg (mt hrank.1 hlate), List.filter_cons_of_neg (by simpa [htake] using hlate)]
        rfl

theorem orderIssues_eq_map (ss : List Section) :
    orderIssues 0 ss = (lateSections ss).map orderIssue :=
  orderIssues_eq_of_bound [] ss isBound_nil

/-- No section is late exactly if no phase is followed by an earlier one. -/
theorem lateSections_eq_nil_iff (ss : List Section) :
    lateSections ss = [] ↔ (ss.map Section.phase).Pairwise fun p q => ¬ q.Precedes p := by
  rw [lateSections, List.map_eq_nil_iff, List.filter_eq_nil_iff, List.pairwise_map,
    List.pairwise_iff_getElem]
  constructor
  · intro h i j hi hj hij hprecedes
    refine h (ss[j], j) (List.mem_zipIdx_iff_getElem?.2 (List.getElem?_eq_getElem hj)) ?_
    exact decide_eq_true ⟨ss[i], List.mem_take_iff_getElem.2 ⟨i, by omega, rfl⟩, hprecedes⟩
  · rintro h ⟨s, j⟩ hs hlate
    obtain ⟨e, he, hprecedes⟩ : IsLate (ss.take j) s := of_decide_eq_true hlate
    have hs : ss[j]? = some s := List.mem_zipIdx_iff_getElem?.1 hs
    obtain ⟨hj, rfl⟩ := List.getElem?_eq_some_iff.1 hs
    obtain ⟨i, hi, rfl⟩ := List.mem_take_iff_getElem.1 he
    exact h i j (by omega) hj (by omega) hprecedes

/-! ## All issues of the phases -/

theorem code_of_mem_missingPhases {ss : List Section} :
    ∀ i ∈ missingPhases ss, i.code ∈ ["AAA001".toList, "AAA002".toList, "AAA003".toList] := by
  rw [missingPhases, List.forall_mem_append, List.forall_mem_append]
  exact ⟨⟨forall_mem_unless (by decide), forall_mem_unless (by decide)⟩,
    forall_mem_unless (by decide)⟩

/-- Each check of the sections that are there has a code of its own. -/
theorem withCode_phases {d : Document} (hd : d.fileType = some .testCase) {code : Text}
    (hcode : code ∉ ["AAA001".toList, "AAA002".toList, "AAA003".toList]) :
    withCode code (phases d) =
      (if "AAA004".toList = code then (lateSections d.sections).map orderIssue else []) ++
      (if "AAA005".toList = code then idleActs d.sections else []) ++
      (if "AAA006".toList = code then idleAsserts d.sections else []) := by
  have hmissing : withCode code (missingPhases d.sections) = [] :=
    List.filter_eq_nil_iff.2 fun i hi => by
      have hne : i.code ≠ code := fun h => hcode (h ▸ code_of_mem_missingPhases i hi)
      simpa using hne
  have horder : ∀ i ∈ (lateSections d.sections).map orderIssue, i.code = "AAA004".toList :=
    List.forall_mem_map.2 fun _ _ => rfl
  have hacts : ∀ i ∈ idleActs d.sections, i.code = "AAA005".toList :=
    List.forall_mem_map.2 fun _ _ => rfl
  have hasserts : ∀ i ∈ idleAsserts d.sections, i.code = "AAA006".toList :=
    List.forall_mem_map.2 fun _ _ => rfl
  rw [← withCode_of_forall horder, ← withCode_of_forall hacts, ← withCode_of_forall hasserts,
    phases, if_pos hd, orderIssues_eq_map]
  simp only [withCode, List.filter_append] at hmissing ⊢
  rw [hmissing, List.nil_append]

theorem withCode_order_phases {d : Document} (hd : d.fileType = some .testCase) :
    withCode "AAA004" (phases d) = (lateSections d.sections).map orderIssue := by
  rw [withCode_phases hd (by decide), if_pos rfl, if_neg (by decide), if_neg (by decide),
    List.append_nil, List.append_nil]

/-- The errors of the phases are that an act or an assert section is missing. -/
theorem any_isError_phases (d : Document) : (phases d).any Issue.isError =
    (d.fileType = some .testCase && !(hasPhase .act d.sections && hasPhase .assert d.sections)) := by
  have hmissing : (missingPhases d.sections).any Issue.isError =
      !(hasPhase .act d.sections && hasPhase .assert d.sections) := by
    rw [missingPhases]
    cases hasPhase .act d.sections <;> cases hasPhase .assert d.sections <;>
      cases hasPhase .arrange d.sections <;> rfl
  have horder : (orderIssues 0 d.sections).any Issue.isError = false := by
    rw [orderIssues_eq_map, List.any_map]
    exact List.any_eq_false.2 fun _ _ => Bool.false_ne_true
  have hacts : (idleActs d.sections).any Issue.isError = false := by
    rw [idleActs, List.any_map]
    exact List.any_eq_false.2 fun _ _ => Bool.false_ne_true
  have hasserts : (idleAsserts d.sections).any Issue.isError = false := by
    rw [idleAsserts, List.any_map]
    exact List.any_eq_false.2 fun _ _ => Bool.false_ne_true
  rw [phases]
  split
  · next htype => simp [htype, hmissing, horder, hacts, hasserts]
  · next htype => simp [htype]

end Check

namespace PhaseReview

theorem isValid_of_ofText [Yaml.Loader] {t : Text} {r : PhaseReview} (h : ofText t = .ok r) :
    r.isValid = (!r.applies || (r.has .act && r.has .assert)) := by
  obtain ⟨d, -, hr⟩ := bind_eq_ok_iff.1 h
  obtain rfl := Except.ok.inj hr
  rw [isValid, Check.any_isError_phases, Bool.not_and, Bool.not_not]
  rfl

/-- What the object of a review says: whether the document is a test case, whether it has an act and
an assert section, and whether it is valid. -/
def Shows (r : PhaseReview) (applies act assert valid : Bool) : Prop :=
  r.json.lookup? "applies" = some (.bool applies) ∧ r.json.lookup? "has_act" = some (.bool act) ∧
    r.json.lookup? "has_assert" = some (.bool assert) ∧
      r.json.lookup? "is_valid" = some (.bool valid)

theorem shows (r : PhaseReview) : r.Shows r.applies (r.has .act) (r.has .assert) r.isValid :=
  ⟨Json.lookup?_maskAll "applies" _, Json.lookup?_maskAll "has_act" _,
    Json.lookup?_maskAll "has_assert" _, Json.lookup?_maskAll "is_valid" _⟩

end PhaseReview

namespace Check

/-- **Phases in their order.** In a test case the sections that are reported for their order are, one
after the other, those behind a section of a later phase. There are none exactly if no phase is
followed by an earlier one. And a review of the phases is valid exactly if the document is no test
case or has both an act and an assert section. -/
theorem phases_in_order [Yaml.Loader] :
    (∀ d : Document, d.fileType = some .testCase →
      withCode "AAA004" (phases d) = (lateSections d.sections).map orderIssue ∧
      (withCode "AAA004" (phases d) = [] ↔
        (d.sections.map Section.phase).Pairwise fun p q => ¬ q.Precedes p)) ∧
    ∀ t r, PhaseReview.ofText t = .ok r → ∃ applies act assert valid,
      r.Shows applies act assert valid ∧
        (valid = true ↔ applies = false ∨ act = true ∧ assert = true) := by
  refine ⟨fun d hd => ?_, fun t r hr => ?_⟩
  · have horder := withCode_order_phases hd
    refine ⟨horder, ?_⟩
    rw [horder, List.map_eq_nil_iff]
    exact lateSections_eq_nil_iff d.sections
  · refine ⟨_, _, _, _, r.shows, ?_⟩
    rw [PhaseReview.isValid_of_ofText hr]
    simp

/-- A test case whose phases return. -/
def returningPhases : Text :=
  "---\ntype: Test Case\n---\n# Then\n# Given\n# Notes\n# When\n# Given\n# Then\n"

/-- Two kinds of phases come too late, one of them twice, and the last section is in its place. -/
theorem phases_in_order_returning :
    ∃ r, PhaseReview.ofText returningPhases = .ok r ∧ r.document.fileType = some .testCase ∧
      (withCode "AAA004" (phases r.document)).map Issue.line = [some 5, some 7, some 8] ∧
      ¬ (r.document.sections.map Section.phase).Pairwise (fun p q => ¬ q.Precedes p) ∧
      ∃ applies act assert valid, r.Shows applies act assert valid ∧
        (valid = true ↔ applies = false ∨ act = true ∧ assert = true) := by
  obtain ⟨r, hr, hdocument⟩ := Redaction.exists_eq_ok (e := PhaseReview.ofText returningPhases)
    (p := fun r => r.document.fileType = some .testCase ∧
      ((lateSections r.document.sections).map orderIssue).map Issue.line = [some 5, some 7, some 8])
    (by decide +kernel)
  obtain ⟨htype, hlines⟩ := of_decide_eq_true hdocument
  obtain ⟨hissues, hnone⟩ := phases_in_order.1 r.document htype
  rw [← hissues] at hlines
  refine ⟨r, hr, htype, hlines, fun hpairwise => ?_, phases_in_order.2 returningPhases r hr⟩
  rw [hnone.2 hpairwise] at hlines
  cases hlines

end Check

end ScriptAudit
