import ScriptAudit.Proofs.Check.Answers
import ScriptAudit.Proofs.Files.Opening
import ScriptAudit.Proofs.Output.Answers

/-!
# Faults of texts

No file is in the way of an operation on a text: what is wrong with a document or with an output is
wrong with what it says.
-/

namespace ScriptAudit

/-! ## Documents -/

section Documents

variable [Yaml.Loader] [Yaml.LawfulLoader]

theorem Document.textual_read (t : Text) : Textual (read t) := by
  intro fault path h
  obtain ⟨block, -, hload | ⟨hshown, -⟩⟩ := read_eq_error_iff.1 h
  · exact Yaml.LawfulLoader.load_ne_file block fault path hload
  · cases hshown

theorem Review.textual_ofText (strict : Bool) (t : Text) : Textual (ofText strict t) := by
  refine (Document.textual_read t).bind fun d => ?_
  intro fault path h
  have hshown := ((Check.shownWhen_all d).bind_pure _).eq_error_iff.1 h
  cases hshown.1

theorem PhaseReview.textual_ofText (t : Text) : Textual (ofText t) :=
  (Document.textual_read t).bind fun _ => .of_pure _

theorem CommandReview.textual_ofText (t : Text) : Textual (ofText t) :=
  (Document.textual_read t).bind fun _ => .of_pure _

end Documents

/-! ## Outputs -/

theorem Trace.textual_count (ds : Text) : Textual (count ds) := .ite (.of_error rfl) (.of_ok _)

theorem Trace.textual_tokensFrom (number : Nat) (lines : List Text) :
    Textual (tokensFrom number lines) := by
  have htoken (number : Nat) (line : Text) : Textual (token? number line) := by
    rw [token?]
    cases entry? (Text.trim line) with
    | none => exact .of_ok none
    | some e =>
      dsimp only
      cases e.code with
      | none => exact .of_ok _
      | some ds => exact (textual_count _).map.bind fun _ => .of_pure _
  induction lines generalizing number with
  | nil => exact .of_ok []
  | cons l ls ih => exact (htoken number l).bind fun _ => (ih _).bind fun _ => .of_pure _

theorem Report.textual_read (raw : Text) : Textual (read raw) := by
  have hcounter (label : Recogniser Text) : Textual (counter label raw) := by
    rw [counter]
    cases label.first? raw with
    | some ds => exact (Trace.textual_count ds).map
    | none => exact .of_ok 0
  exact (hcounter _).bind fun _ => (hcounter _).bind fun _ => (hcounter _).bind fun _ =>
    (hcounter _).bind fun _ => (hcounter _).bind fun _ => .of_pure _

theorem Statistics.textual_read (raw : Text) : Textual (read raw) := by
  intro fault path h
  obtain ⟨_, _, _, -, -, hrange⟩ := read_eq_error_iff_overruns.1 h
  cases hrange

theorem Finding.textual_warnings (raw : Text) : Textual (warnings raw) := by
  have hwarning (ds : Text) : Textual (averageWarning ds) := by
    exact (Trace.textual_count ds).bind fun n => .ite (.of_ok _) (.of_ok _)
  exact (Textual.mapM hwarning _).bind fun _ => .of_pure _

theorem Result.textual_ofText (raw : Text) : Textual (ofText raw) :=
  (Trace.textual_tokensFrom 1 _).map.bind fun _ => (Report.textual_read raw).bind fun _ =>
    (Statistics.textual_read raw).bind fun _ => (Finding.textual_warnings raw).bind fun _ =>
      .of_pure _

namespace Analysis

theorem textual_twoPlaces (n : Number) : Textual (twoPlaces n) := by
  rw [twoPlaces]
  cases n.toFloat? with
  | some x => exact .of_ok _
  | none => exact .of_error rfl

theorem textual_failureRate (r : Report) : Textual (failureRate r) := by
  have hquotient (n d : Int) : Textual (quotient n d) := by
    rw [quotient]
    cases Binary64.ofRatio? (decide (n < 0) != decide (d < 0)) n.natAbs d.natAbs with
    | some x => exact .of_ok x
    | none => exact .of_error rfl
  exact .ite (.of_ok []) ((hquotient _ _).bind fun rate => .ite (.of_ok _) (.of_ok _))

theorem textual_isAction (c : ServerCall) : Textual (isAction c) := by
  have hoccurs (t : Text) (v : Json) : Textual (occursIn t v) := by
    cases v with
    | str | arr | obj => exact .of_ok _
    | null | bool => exact .of_error rfl
    | num n => cases n <;> exact .of_error rfl
  refine (hoccurs _ _).bind fun found => ?_
  exact .ite (.of_ok true) (hoccurs _ _)

theorem textual_ofResult (r : Result) : Textual (ofResult r) := by
  have hsummary : Textual (summarize r) := by
    exact .ite ((textual_twoPlaces _).bind fun _ => .of_pure _) (.of_ok _)
  have hissues : Textual (diagnose r) := (textual_failureRate _).bind fun _ => .of_pure _
  have hperformance : Textual (performanceOf r) :=
    (Textual.filterM textual_isAction _).bind fun _ => .of_pure _
  exact hsummary.bind fun _ => hissues.bind fun _ => hperformance.bind fun _ => .of_pure _

/-- An output is taken apart and analysed. -/
theorem mild_assess_iff {β : Type} {raw : Text} {g : Result → Analysis → β} :
    Mild (Result.ofText raw >>= fun r => (ofResult r).map (g r)) ↔
      Legible raw ∧ ∀ r, Result.ofText raw = .ok r → Assessable r := by
  have hassess (r : Result) (h : Result.ofText raw = .ok r) :
      Mild ((ofResult r).map (g r)) ↔ Assessable r := by
    rw [Mild.map_iff, (textual_ofResult r).mild_iff]
    exact answers_ofResult_iff (Report.seconds_of_read (Result.report_of_ofText h))
  rw [Mild.bind_iff, (Result.textual_ofText raw).mild_iff, Result.answers_ofText_iff]
  exact and_congr_right fun _ => forall_congr' fun r => forall_congr' (hassess r)

end Analysis

theorem OutputReview.textual_ofText (raw : Text) : Textual (ofText raw) :=
  (Result.textual_ofText raw).bind fun r => (Analysis.textual_ofResult r).bind fun _ => .of_pure _

theorem OutputReview.answers_ofText_iff {raw : Text} : Answers (ofText raw) ↔
    Legible raw ∧ ∀ r, Result.ofText raw = .ok r → Analysis.Assessable r :=
  (textual_ofText raw).mild_iff.symm.trans Analysis.mild_assess_iff

end ScriptAudit
