import ScriptAudit.Check.Review
import ScriptAudit.Proofs.Document.Settings

/-!
# Which documents can be checked

Of all checks only that of the metadata can fail, and only because the type or the mode goes into
a message and cannot be shown (`Check.shownWhen_metadata`). So a text has a review exactly if it is
read as a document whose metadata are `Metadata.Showable` (`Review.answers_ofText_iff`); to keep
more or less of the issues makes no difference. The reviews of single checks need the document only.
-/

namespace ScriptAudit

/-! ## Values that are shown anyway -/

namespace Yaml.Value

theorem showable_of_isVoid {v : Value} (h : v.isVoid = true) : v.Showable := by
  cases v with
  | null | bool | str | bytes | date | moment | enclosing => exact showable_of_integers_eq_nil rfl
  | pair => cases h
  | num n =>
    cases n with
    | float => exact showable_of_integers_eq_nil rfl
    | int i =>
      obtain rfl : i = 0 := by simpa [isVoid, Number.isZero, Number.extent] using h
      exact List.forall_mem_singleton.2 (Nat.pow_pos (Nat.succ_pos 9))
  | list items | set items | map items =>
    obtain rfl := List.isEmpty_iff.1 h
    exact showable_of_integers_eq_nil rfl

end Yaml.Value

theorem FileType.showable_of_ne_none {v : Yaml.Value} (h : ofValue? v ≠ none) : v.Showable := by
  cases v with
  | str => exact Yaml.Value.showable_of_integers_eq_nil rfl
  | _ => exact absurd rfl h

theorem Mode.showable_of_ne_none {v : Yaml.Value} (h : ofValue? v ≠ none) : v.Showable := by
  cases v with
  | str => exact Yaml.Value.showable_of_integers_eq_nil rfl
  | _ => exact absurd rfl h

/-! ## The check of the metadata -/

/-- Whether the settings that go into messages can be shown: the type, and the mode of a document
that needs one. -/
structure Metadata.Showable (m : Metadata) : Prop where
  type : m.type.Showable
  mode : m.fileType?.any FileType.hasMode = true → m.mode.Showable

namespace Check

theorem shownWhen_typeIssues (type : Yaml.Value) : ShownWhen type.Showable (typeIssues type) := by
  rw [typeIssues]
  split_ifs with hvoid hnone
  · exact .of_pure _ (Yaml.Value.showable_of_isVoid hvoid)
  · exact type.shownWhen_text.bind_pure _
  · exact .of_pure _ (FileType.showable_of_ne_none (by simpa using hnone))

/-- Whether the settings in a message about the mode can be shown. -/
def ModeShowable (type mode : Yaml.Value) : Prop :=
  if (FileType.ofValue? type).any FileType.hasMode then mode.Showable
  else mode.isVoid = false → type.Showable

theorem shownWhen_modeIssues (type mode : Yaml.Value) :
    ShownWhen (ModeShowable type mode) (modeIssues type mode) := by
  rw [modeIssues, ModeShowable]
  split_ifs with hmode hvoid hnone hidle
  · -- the name of a type is a text
    have htype : type.Showable :=
      FileType.showable_of_ne_none fun hnone => by simp [hnone] at hmode
    exact (type.shownWhen_text.bind_pure _).congr
      (iff_of_true htype (Yaml.Value.showable_of_isVoid hvoid))
  · exact mode.shownWhen_text.bind_pure _
  · exact .of_pure _ (Mode.showable_of_ne_none (by simpa using hnone))
  · rw [Bool.and_eq_true, Bool.not_eq_true', Bool.not_eq_true'] at hidle
    exact (type.shownWhen_text.bind_pure _).congr ⟨fun h _ => h, fun h => h hidle.1⟩
  · refine .of_pure _ fun hm => Yaml.Value.showable_of_isVoid ?_
    simpa [hm] using hidle

/-- **Metadata are checked unless a setting cannot be shown.** -/
theorem shownWhen_metadata (m : Option Metadata) :
    ShownWhen (∀ s ∈ m, s.Showable) (metadata m) := by
  cases m with
  | none => exact .of_ok _ nofun
  | some s =>
    refine ((shownWhen_typeIssues s.type).bind fun _ =>
      (shownWhen_modeIssues s.type s.mode).bind_pure _).congr ?_
    simp only [Option.mem_def, Option.some.injEq, forall_eq', ModeShowable]
    constructor
    · rintro ⟨htype, hmode⟩
      exact ⟨htype, fun hneeds => Eq.mp (if_pos hneeds) hmode⟩
    · rintro ⟨htype, hmode⟩
      refine ⟨htype, ?_⟩
      split
      · next hneeds => exact hmode hneeds
      · exact fun _ => htype

/-- The other checks answer for every document. -/
theorem shownWhen_all (d : Document) : ShownWhen (∀ s ∈ d.metadata, s.Showable) (all d) :=
  (shownWhen_metadata d.metadata).bind_pure _

end Check

/-! ## Reviews -/

/-- Whether a text is read as a document whose metadata can be checked. -/
def Reviewable [Yaml.Loader] (t : Text) : Prop :=
  ∃ d, Document.read t = .ok d ∧ ∀ s ∈ d.metadata, s.Showable

theorem Review.answers_ofText_iff [Yaml.Loader] {strict : Bool} {t : Text} :
    Answers (ofText strict t) ↔ Reviewable t := by
  rw [ofText, answers_bind_iff, Reviewable]
  refine exists_congr fun d => and_congr_right fun _ => ?_
  exact ((Check.shownWhen_all d).bind_pure _).answers_iff

theorem PhaseReview.answers_ofText_iff [Yaml.Loader] {t : Text} :
    Answers (ofText t) ↔ Answers (Document.read t) :=
  answers_bind_of_forall fun _ => answers_pure _

theorem CommandReview.answers_ofText_iff [Yaml.Loader] {t : Text} :
    Answers (ofText t) ↔ Answers (Document.read t) :=
  answers_bind_of_forall fun _ => answers_pure _

end ScriptAudit
