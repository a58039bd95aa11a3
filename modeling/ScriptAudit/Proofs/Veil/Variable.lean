import ScriptAudit.Check.Naming
import ScriptAudit.Proofs.Veil.Layout
import ScriptAudit.Proofs.Veil.Pattern

/-!
# A password on a line with variables

The variables of two lines that differ in a password have the same names on the same places; only
the contexts, which are cut from the lines, may differ (`Variable.ofLine_veil`). What the check of
names says of a variable does not depend on its context (`Check.naming_map_veil`).
-/

namespace ScriptAudit

open Redaction (EndsWithUser mask)

namespace Variable

/-- A variable with its context replaced. -/
def veil (f : Text → Text) (v : Variable) : Variable := { v with context := f v.context }

section

variable {p q : Text} (hp : IsPassword p) (hq : IsPassword q)

include hp hq

theorem definitions_enclosed (front back : Text) :
    definitions (front ++ (enclosed p ++ back)) = definitions (front ++ (enclosed q ++ back)) :=
  (Text.overlooks_wordAfter (Text.forall_mem_of_all (by decide))).occurrences_eq hp hq front back

theorem usages_enclosed (line : Nat) {front : Text} (hfront : EndsWithUser front) (back : Text) :
    usages line (front ++ (enclosed p ++ back)) = usages line (front ++ (enclosed q ++ back)) := by
  refine filterMap_eq_of_forall₂
    (Pattern.forall₂_scan hp hq line (Or.inr hfront) (Nat.zero_le _) back) fun a b hab => ?_
  simp only [hab.problem_eq, hab.usedName?_eq hp hq]

/-- Lines that differ in a password have the same variables, but for the contexts. -/
theorem ofLine_veil {f : Text → Text} {front back : Text} (hfront : EndsWithUser front)
    (hcontext : f ((Text.trim (front ++ (enclosed p ++ back))).take contextLength) =
      f ((Text.trim (front ++ (enclosed q ++ back))).take contextLength)) (line : Nat) :
    (ofLine line (front ++ (enclosed p ++ back))).map (veil f) =
      (ofLine line (front ++ (enclosed q ++ back))).map (veil f) := by
  simp only [ofLine, definitions_enclosed hp hq, usages_enclosed hp hq line hfront, List.map_append,
    List.map_map, Function.comp_def, veil, hcontext]

end

/-- Code blocks with the same variables on both versions of a line have the same variables. -/
theorem ofBlocks_veil {f : Text → Text} {l l' : Text}
    (hl : ∀ line, (ofLine line l).map (veil f) = (ofLine line l').map (veil f))
    {bs bs' : List CodeBlock} (h : List.Forall₂ (CodeBlock.Twin l l') bs bs') :
    (ofBlocks bs).map (veil f) = (ofBlocks bs').map (veil f) := by
  rw [ofBlocks, ofBlocks, List.map_flatMap, List.map_flatMap]
  refine flatMap_eq_of_forall₂ h fun b b' hb => ?_
  rw [List.map_flatMap, List.map_flatMap]
  refine flatMap_eq_of_forall₂ hb.lines_twin fun a a' ha => ?_
  obtain ⟨number, t⟩ := a
  obtain ⟨number', t'⟩ := a'
  obtain ⟨rfl, htext⟩ := ha
  rcases htext with rfl | ⟨rfl, rfl⟩
  · rfl
  · exact hl number

end Variable

/-! ## What is said about names -/

namespace Naming

variable (f : Text → Text) (vs : List Variable)

theorem isDefined_map_veil (name : Text) :
    isDefined name (vs.map (Variable.veil f)) = isDefined name vs := by
  rw [isDefined, List.any_map]
  rfl

theorem isUsed_map_veil (name : Text) :
    isUsed name (vs.map (Variable.veil f)) = isUsed name vs := by
  rw [isUsed, List.any_map]
  rfl

theorem isDefinedBy_map_veil (name : Text) (line : Nat) :
    isDefinedBy name line (vs.map (Variable.veil f)) = isDefinedBy name line vs := by
  rw [isDefinedBy, firstDefinition?, List.foldl_map]
  rfl

theorem firsts_map_veil (seen : List Text) :
    firsts seen (vs.map (Variable.veil f)) = (firsts seen vs).map (Variable.veil f) := by
  induction vs generalizing seen with
  | nil => rfl
  | cons v vs ih =>
    have hname : (v.veil f).name = v.name := rfl
    rw [List.map_cons, firsts, firsts, hname]
    split
    · exact ih seen
    · rw [ih, List.map_cons]

theorem nameIssues_map_veil : (nameIssues (vs.map (Variable.veil f))).map (Issue.veil id) =
    (nameIssues vs).map (Issue.veil f) := by
  simp only [nameIssues, verdicts, firsts_map_veil, isDefined_map_veil, List.filter_map,
    List.map_map, List.filterMap_map, List.map_filterMap]
  congr 1
  funext v
  show Option.map _ (Option.map _ (problem? v.name)) = Option.map _ (Option.map _ (problem? v.name))
  cases problem? v.name <;> rfl

theorem usageIssues_map_veil : (usageIssues (vs.map (Variable.veil f))).map (Issue.veil id) =
    (usageIssues vs).map (Issue.veil f) := by
  have hsort (us : List Variable) :
      ((us.map (Variable.veil f)).mergeSort fun a b => a.line ≤ b.line) =
        (us.mergeSort fun a b => a.line ≤ b.line).map (Variable.veil f) := by
    symm
    exact List.map_mergeSort fun _ _ _ _ => rfl
  simp only [usageIssues, isDefinedBy_map_veil, List.filter_map, hsort, List.map_map]
  rfl

theorem definitionIssues_map_veil : (definitionIssues (vs.map (Variable.veil f))).map (Issue.veil id) =
    (definitionIssues vs).map (Issue.veil f) := by
  simp only [definitionIssues, isUsed_map_veil, List.filter_map, List.map_map]
  rfl

end Naming

namespace Check

/-- The names are checked without a look at the contexts. -/
theorem naming_map_veil (f : Text → Text) (vs : List Variable) :
    (naming (vs.map (Variable.veil f))).map (Issue.veil id) = (naming vs).map (Issue.veil f) := by
  simp only [naming, List.map_append, Naming.nameIssues_map_veil, Naming.usageIssues_map_veil,
    Naming.definitionIssues_map_veil]

/-- Variables that are the same but for their contexts have the same issues but for the contexts. -/
theorem naming_veil {f : Text → Text} {vs ws : List Variable}
    (h : vs.map (Variable.veil f) = ws.map (Variable.veil f)) :
    (naming vs).map (Issue.veil f) = (naming ws).map (Issue.veil f) := by
  rw [← naming_map_veil, h, naming_map_veil]

end Check

end ScriptAudit
