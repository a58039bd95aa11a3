import ScriptAudit.Check.Review
import ScriptAudit.Proofs.Document.Sections
import ScriptAudit.Proofs.Veil.Frontmatter
import ScriptAudit.Proofs.Veil.Script
import ScriptAudit.Proofs.Veil.Section
import ScriptAudit.Proofs.Veil.Variable

/-!
# A password in a document

When a password stands on a line of a script, documents that differ in it have the same parts, but
for the password in patterns that are not well formed and for the contexts of the variables on its
line (`Document.twin_ofBody`). All checks raise the same issues about them, once the messages are
masked, and but for the contexts (`Check.all_veil`).
-/

namespace ScriptAudit

open Redaction (EndsWithUser)

/-- Two documents of which the checks see the same, but for the passwords `p` and `q` on a line, and
for contexts that `f` makes equal. -/
structure Document.Twin (p q : Text) (f : Text → Text) (d d' : Document) : Prop where
  metadata_eq : d.metadata = d'.metadata
  fileType_eq : d.fileType = d'.fileType
  sections : List.Forall₂ Section.Alike d.sections d'.sections
  usages : d.usages.map (Variable.veil f) = d'.usages.map (Variable.veil f)
  patterns : List.Forall₂ (Pattern.Twin p q) d.patterns d'.patterns
  commands : List.Forall₂ Command.Alike d.commands d'.commands
  lines : ∃ above front back below, EndsWithUser front ∧
    Text.lines d.text = above ++ (front ++ (enclosed p ++ back)) :: below ∧
    Text.lines d'.text = above ++ (front ++ (enclosed q ++ back)) :: below

theorem Document.Twin.length_usages {p q : Text} {f : Text → Text} {d d' : Document}
    (h : Twin p q f d d') : d.usages.length = d'.usages.length := by
  simpa using congrArg List.length h.usages

section

variable {p q : Text} (hp : IsPassword p) (hq : IsPassword q)

include hp hq

/-- Bodies that differ in a password on a line inside of a fence. -/
theorem Document.twin_ofBody {f : Text → Text} {t t' : Text} {above below : List Text}
    {front back : Text} (hfront : EndsWithUser front)
    (hlines : Text.lines t = above ++ (front ++ (enclosed p ++ back)) :: below)
    (hlines' : Text.lines t' = above ++ (front ++ (enclosed q ++ back)) :: below)
    (hcontext : f ((Text.trim (front ++ (enclosed p ++ back))).take Variable.contextLength) =
      f ((Text.trim (front ++ (enclosed q ++ back))).take Variable.contextLength))
    {start : Nat} {fence : Fence} (hcontent : Content start
      (above ++ (front ++ (enclosed p ++ back)) :: below) fence (above.length + 1)
      (front ++ (enclosed p ++ back))) (m : Option Metadata) :
    Twin p q f (ofBody m start t) (ofBody m start t') := by
  have htwin := Line.forall₂_ofLines
    (fun marks => Fence.closes_enclosed marks p front back)
    (fun marks => Fence.closes_enclosed marks q front back) hcontent
  have hblocks := forall₂_scriptBlocks htwin
  have hlength : (Text.lines t).length = (Text.lines t').length := by
    rw [hlines, hlines', List.length_append, List.length_append, List.length_cons, List.length_cons]
  refine ⟨rfl, rfl, ?_, ?_, ?_, ?_, above, front, back, below, hfront, hlines, hlines'⟩
  · show List.Forall₂ _ (List.map _ (Section.bounds start (Text.lines t).length (headings _)))
      (List.map _ (Section.bounds start (Text.lines t').length (headings _)))
    rw [hlength, hlines, hlines', headings_eq_of_twin htwin]
    exact List.forall₂_map_left_iff.2 (List.forall₂_map_right_iff.2 (List.forall₂_same.2 fun b _ =>
      Section.alike_ofBounds hp hq front back above below _ _ b))
  · show (Variable.ofBlocks (scriptBlocks (Line.ofLines start (Text.lines t)))).map _ =
      (Variable.ofBlocks (scriptBlocks (Line.ofLines start (Text.lines t')))).map _
    rw [hlines, hlines']
    exact Variable.ofBlocks_veil (Variable.ofLine_veil hp hq hfront hcontext) hblocks
  · show List.Forall₂ _ (Pattern.ofLines (Text.lines t)) (Pattern.ofLines (Text.lines t'))
    rw [hlines, hlines']
    exact Pattern.forall₂_ofLines hp hq hfront back above below
  · show List.Forall₂ _ ((scriptBlocks (Line.ofLines start (Text.lines t))).flatMap Script.commands)
      ((scriptBlocks (Line.ofLines start (Text.lines t'))).flatMap Script.commands)
    rw [hlines, hlines', List.flatMap_def, List.flatMap_def]
    exact List.rel_flatten (List.forall₂_map_left_iff.2 (List.forall₂_map_right_iff.2
      (hblocks.imp fun _ _ hb => Script.forall₂_commands (Script.readAlike_enclosed hp hq front back) hb)))

end

namespace Check

variable {cs cs' : List Command}

theorem fileTypeRules_eq (h : List.Forall₂ Command.Alike cs cs') (fileType : Option FileType) :
    fileTypeRules fileType cs = fileTypeRules fileType cs' := by
  have hany (is : Keyword → Bool) : (cs.any fun c => is c.keyword) = cs'.any fun c => is c.keyword := by
    have hmap := congrArg (List.any · is) (map_eq_of_forall₂ h fun _ _ hc => hc.keyword_eq)
    rwa [List.any_map, List.any_map] at hmap
  have hasserts := hany Keyword.isAssert
  have hsuite := hany fun k => !suiteKeywords.elem k
  have hcollection := hany fun k => !collectionKeywords.elem k
  simp only [fileTypeRules, hasserts, hsuite, hcollection]

theorem commands_eq {d d' : Document} (htype : d.fileType = d'.fileType)
    (h : List.Forall₂ Command.Alike d.commands d'.commands) : commands d = commands d' := by
  rw [commands, commands, htype, fileTypeRules_eq h,
    flatMap_eq_of_forall₂ h fun _ _ hc => hc.issues_eq d'.fileType]

/-- All checks raise the same issues about documents that differ in a password, once the messages are
masked, and but for the contexts. -/
theorem all_veil {p q : Text} (hp : IsPassword p) (hq : IsPassword q) {f : Text → Text}
    (hf : Blind p q f) {d d' : Document} (h : Document.Twin p q f d d') :
    (all d).map (List.map (Issue.veil f)) = (all d').map (List.map (Issue.veil f)) := by
  obtain ⟨above, front, back, below, hfront, hlines, hlines'⟩ := h.lines
  have hnaming := naming_veil h.usages
  have hpatterns := patterns_veil hp hq hf hfront hlines hlines' h.patterns
  rw [all, all, h.metadata_eq, phases_eq h.fileType_eq h.sections, commands_eq h.fileType_eq h.commands]
  cases metadata d'.metadata with
  | error => rfl
  | ok issues =>
    show Except.ok (List.map _ _) = Except.ok (List.map _ _)
    simp only [List.map_append, hnaming, hpatterns]

end Check

end ScriptAudit
