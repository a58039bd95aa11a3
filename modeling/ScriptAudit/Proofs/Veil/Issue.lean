import Mathlib.Data.List.Forall2
import ScriptAudit.Check.Review
import ScriptAudit.Proofs.Veil.Basic

/-!
# Issues that differ in a password

An issue is compared with another one by what is left of it when its message is masked and its
context is replaced (`Issue.veil`). Issues that agree so are the same objects when they are masked,
and so are reviews with such issues and the same counts (`Review.json_eq_of_veil`).
-/

namespace ScriptAudit

open Redaction (Veiled mask maskAll maskItems maskFields)

/-! ## Lists of related things -/

section

variable {α β γ : Type} {R : α → β → Prop} {as : List α} {bs : List β}

theorem map_eq_of_forall₂ (h : List.Forall₂ R as bs) {f : α → γ} {g : β → γ}
    (hfg : ∀ a b, R a b → f a = g b) : as.map f = bs.map g := by
  rw [← List.forall₂_eq_eq_eq, List.forall₂_map_left_iff, List.forall₂_map_right_iff]
  exact h.imp hfg

theorem flatMap_eq_of_forall₂ (h : List.Forall₂ R as bs) {f : α → List γ} {g : β → List γ}
    (hfg : ∀ a b, R a b → f a = g b) : as.flatMap f = bs.flatMap g := by
  rw [List.flatMap_def, List.flatMap_def, map_eq_of_forall₂ h hfg]

theorem filterMap_eq_of_forall₂ (h : List.Forall₂ R as bs) {f : α → Option γ} {g : β → Option γ}
    (hfg : ∀ a b, R a b → f a = g b) : as.filterMap f = bs.filterMap g := by
  rw [List.filterMap_eq_flatMap_toList, List.filterMap_eq_flatMap_toList]
  exact flatMap_eq_of_forall₂ h fun a b hab => by rw [hfg a b hab]

end

/-! ## Functions that do not see a password -/

open Redaction (maskItems_eq_map maskFields_append maskFields_field?)

/-- A function of texts that does not depend on a password behind a user. -/
def Blind (p q : Text) (f : Text → Text) : Prop := ∀ s t, Veiled p q s t → f s = f t

theorem blind_mask {p q : Text} (hp : IsPassword p) (hq : IsPassword q) : Blind p q mask :=
  fun _ _ h => h.mask_eq hp hq

/-! ## Issues -/

namespace Issue

/-- An issue with its message masked and its context replaced. -/
def veil (f : Text → Text) (i : Issue) : Issue :=
  { i with message := mask i.message, context := i.context.map f }

/-- An issue without its context. -/
def withoutContext (i : Issue) : Issue := { i with context := none }

theorem veil_withoutContext (f g : Text → Text) (i : Issue) :
    i.withoutContext.veil f = (i.veil g).withoutContext := rfl

theorem maskAll_json_eq {i j : Issue} (h : i.veil mask = j.veil mask) :
    maskAll i.json = maskAll j.json := by
  have hfields (i : Issue) : maskAll i.json =
      .obj ([("code".toList, .str (mask i.code)), ("message".toList, .str (i.veil mask).message),
          ("severity".toList, .str (mask i.severity.name))] ++
        maskFields (Json.field? "line" (i.line.map Json.nat)) ++
        maskFields (Json.field? "suggestion" (i.suggestion.map .str)) ++
        Json.field? "context" ((i.veil mask).context.map .str)) := by
    rw [json, maskAll, maskFields_append, maskFields_append, maskFields_append,
      maskFields_field? "context"]
    rfl
  obtain ⟨hcode, -, hseverity, hline, hsuggestion, -⟩ := Issue.mk.inj h
  rw [hfields, hfields, h, hcode, hseverity, hline, hsuggestion]

end Issue

/-! ## Reviews -/

namespace Review

/-- A review whose issues have no contexts. -/
def withoutContexts (r : Review) : Review := { r with issues := r.issues.map Issue.withoutContext }

variable {r r' : Review}

theorem count_eq_of_veil {is js : List Issue} {f : Text → Text}
    (h : is.map (Issue.veil f) = js.map (Issue.veil f)) (s : Severity) : count s is = count s js := by
  have hcount (is : List Issue) : count s is = (is.map (Issue.veil f)).countP (·.severity == s) := by
    rw [List.countP_map]
    rfl
  rw [hcount is, hcount js, h]

/-- Reviews of documents with the same counts, whose issues agree, are the same objects. -/
theorem json_eq_of_veil (h : r.issues.map (Issue.veil mask) = r'.issues.map (Issue.veil mask))
    (htype : r.document.fileType = r'.document.fileType)
    (hcommands : r.document.commands.length = r'.document.commands.length)
    (husages : r.document.usages.length = r'.document.usages.length)
    (hpatterns : r.document.patterns.length = r'.document.patterns.length)
    (hsections : r.document.sections.length = r'.document.sections.length)
    (filename : Option Text) : r.json filename = r'.json filename := by
  have hvalid : r.isValid = r'.isValid := by
    have hany (is : List Issue) : is.any Issue.isError = (is.map (Issue.veil mask)).any Issue.isError := by
      rw [List.any_map]
      rfl
    rw [isValid, isValid, hany r.issues, hany r'.issues, h]
  have hissues : r.issues.map (fun i => maskAll i.json) = r'.issues.map fun i => maskAll i.json := by
    rw [← List.forall₂_eq_eq_eq, List.forall₂_map_left_iff, List.forall₂_map_right_iff] at h ⊢
    exact h.imp fun _ _ => Issue.maskAll_json_eq
  have hitems (r : Review) : maskItems (r.issues.map Issue.json) =
      r.issues.map fun i => maskAll i.json := by
    rw [maskItems_eq_map, List.map_map]
    rfl
  have hname : r.typeName = r'.typeName := by rw [typeName, typeName, htype]
  rw [json, json, fields, fields, maskFields_append, maskFields_append]
  simp only [maskFields, maskAll, hvalid, hname, hitems, hissues, count_eq_of_veil h, hcommands,
    husages, hpatterns, hsections]

end Review

end ScriptAudit
