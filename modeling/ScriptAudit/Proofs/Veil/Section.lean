import Mathlib.Data.List.Forall2
import ScriptAudit.Check.Phases
import ScriptAudit.Proofs.Document.Layout
import ScriptAudit.Proofs.Text.Lines
import ScriptAudit.Proofs.Veil.Command
import ScriptAudit.Proofs.Veil.Issue

/-!
# A password in a section

A section is cut out of the lines of a document without a look at them. So a line stands in it
whatever it is, or does not stand in it (`Section.alike_ofBounds`), and keywords are not found in a
password. The check of the phases says the same about sections in which the same keywords are found
(`Check.phases_eq`).
-/

namespace ScriptAudit

/-! ## One line of a document -/

section

variable {α : Type}

theorem take_append_cons (above below : List α) (m : Nat) :
    (∃ ls, ∀ a, (above ++ a :: below).take m = ls) ∨
      ∃ below', ∀ a, (above ++ a :: below).take m = above ++ a :: below' := by
  rcases Nat.le_or_ge m above.length with hm | hm
  · exact Or.inl ⟨above.take m, fun a => List.take_append_of_le_length hm⟩
  · obtain ⟨k, rfl⟩ := Nat.exists_eq_add_of_le hm
    cases k with
    | zero => exact Or.inl ⟨above, fun a => List.take_left⟩
    | succ k => exact Or.inr ⟨below.take k, fun a => by rw [List.take_length_add_append]; rfl⟩

theorem drop_append_cons (above below : List α) (m : Nat) :
    (∃ ls, ∀ a, (above ++ a :: below).drop m = ls) ∨
      ∃ above', ∀ a, (above ++ a :: below).drop m = above' ++ a :: below := by
  rcases Nat.le_or_ge m above.length with hm | hm
  · exact Or.inr ⟨above.drop m, fun a => List.drop_append_of_le_length hm⟩
  · obtain ⟨k, rfl⟩ := Nat.exists_eq_add_of_le hm
    cases k with
    | zero => exact Or.inr ⟨[], fun a => List.drop_left⟩
    | succ k => exact Or.inl ⟨below.drop k, fun a => by rw [List.drop_length_add_append]; rfl⟩

/-- An element of a list belongs to a slice whatever it is, or does not belong to it. -/
theorem slice_append_cons (above below : List Text) (r : Nat × Nat) :
    (∃ ls, ∀ l, slice (above ++ l :: below) r = ls) ∨
      ∃ above' below', ∀ l, slice (above ++ l :: below) r = above' ++ l :: below' := by
  rcases take_append_cons above below r.2 with ⟨ls, htake⟩ | ⟨below', htake⟩
  · exact Or.inl ⟨ls.drop (r.1 - 1), fun l => by rw [slice, htake]⟩
  · rcases drop_append_cons above below' (r.1 - 1) with ⟨ls, hdrop⟩ | ⟨above', hdrop⟩
    · exact Or.inl ⟨ls, fun l => by rw [slice, htake, hdrop]⟩
    · exact Or.inr ⟨above', below', fun l => by rw [slice, htake, hdrop]⟩

end

/-- A part stands in the joined text whatever it is. -/
theorem Text.exists_joinWith_append_cons (sep : Text) (above below : List Text) :
    ∃ left right, ∀ t, joinWith sep (above ++ t :: below) = left ++ (t ++ right) := by
  have hbelow : ∃ right, ∀ t, joinWith sep (t :: below) = t ++ right := by
    cases below with
    | nil => exact ⟨[], fun t => (List.append_nil t).symm⟩
    | cons u below =>
      refine ⟨sep ++ joinWith sep (u :: below), fun t => ?_⟩
      rw [joinWith_cons sep (List.cons_ne_nil _ _), List.append_assoc]
  obtain ⟨right, hright⟩ := hbelow
  cases above with
  | nil => exact ⟨[], right, hright⟩
  | cons u above =>
    refine ⟨joinWith sep (u :: above) ++ sep, right, fun t => ?_⟩
    rw [joinWith_append sep (List.cons_ne_nil _ _) (List.cons_ne_nil _ _), hright]

/-! ## Keywords in a section -/

/-- Two sections of which the check of the phases sees the same. -/
structure Section.Alike (s s' : Section) : Prop where
  phase_eq : s.phase = s'.phase
  heading_eq : s.heading = s'.heading
  first_eq : s.first = s'.first
  mentions_eq : ∀ keywords,
    Check.mentions keywords (Check.sectionBody s) = Check.mentions keywords (Check.sectionBody s')

namespace Check

section

variable {p q : Text} (hp : IsPassword p) (hq : IsPassword q)

include hp hq

theorem mentions_enclosed (keywords : List Keyword) (t s : Text) :
    mentions keywords (t ++ (enclosed p ++ s)) = mentions keywords (t ++ (enclosed q ++ s)) := by
  have hfound (k : Keyword) : (Text.wholeWord k.name).found (t ++ (enclosed p ++ s)) =
      (Text.wholeWord k.name).found (t ++ (enclosed q ++ s)) :=
    (Text.overlooks_wholeWord k.isAlpha_name).found_eq hp hq t s
  simp only [mentions, hfound]

/-- A password stands on the first line or behind it. -/
theorem mentions_cutLine_enclosed (keywords : List Keyword) (t s : Text) :
    mentions keywords (Text.cutLine (t ++ (enclosed p ++ s))).2 =
      mentions keywords (Text.cutLine (t ++ (enclosed q ++ s))).2 := by
  by_cases hmem : '\n' ∈ t
  · obtain ⟨u, v, rfl, hu⟩ := List.eq_append_cons_of_mem hmem
    have hcut (w : Text) : (Text.cutLine ((u ++ '\n' :: v) ++ w)).2 = v ++ w := by
      rw [Text.cutLine, List.append_assoc, List.cons_append]
      show List.drop 1 (List.dropWhile _ _) = _
      rw [Text.dropWhile_ne_append_cons hu]
      rfl
    rw [hcut, hcut, mentions_enclosed hp hq]
  · have hcut {p : Text} (hp : IsPassword p) :
        (Text.cutLine (t ++ (enclosed p ++ s))).2 = (Text.cutLine s).2 := by
      have hp' : '\n' ∉ enclosed p := hp.notMem (by decide) (by decide) (by decide)
      show List.drop 1 (List.dropWhile _ _) = List.drop 1 (List.dropWhile _ _)
      rw [List.dropWhile_append_of_pos (Text.forall_ne_of_notMem hmem),
        List.dropWhile_append_of_pos (Text.forall_ne_of_notMem hp')]
    rw [hcut hp, hcut hq]

end

end Check

/-- The sections between the same bounds are alike. -/
theorem Section.alike_ofBounds {p q : Text} (hp : IsPassword p) (hq : IsPassword q) (front back : Text)
    (above below : List Text) (commands commands' : List Command) (b : Bounds) :
    Alike (ofBounds (above ++ (front ++ (enclosed p ++ back)) :: below) commands b)
      (ofBounds (above ++ (front ++ (enclosed q ++ back)) :: below) commands' b) where
  phase_eq := rfl
  heading_eq := rfl
  first_eq := rfl
  mentions_eq keywords := by
    have hcontent (lines : List Text) (commands : List Command) :
        (ofBounds lines commands b).content = Text.joinWith ['\n'] (slice lines (b.first, b.last)) :=
      rfl
    simp only [Check.sectionBody, hcontent]
    rcases slice_append_cons above below (b.first, b.last) with ⟨ls, hslice⟩ | ⟨above', below', hslice⟩
    · rw [hslice, hslice]
      rfl
    · obtain ⟨left, right, hjoin⟩ := Text.exists_joinWith_append_cons ['\n'] above' below'
      have htext (p : Text) : left ++ ((front ++ (enclosed p ++ back)) ++ right) =
          (left ++ front) ++ (enclosed p ++ (back ++ right)) := by simp
      rw [hslice, hslice, hjoin, hjoin, htext, htext]
      show Check.mentions keywords (if b.heading.isEmpty then _ else _) =
        Check.mentions keywords (if b.heading.isEmpty then _ else _)
      split
      · exact Check.mentions_enclosed hp hq keywords _ _
      · exact Check.mentions_cutLine_enclosed hp hq keywords _ _

/-! ## The check of the phases -/

namespace Check

variable {ss ss' : List Section}

theorem hasPhase_eq (h : List.Forall₂ Section.Alike ss ss') (p : Phase) :
    hasPhase p ss = hasPhase p ss' := by
  have hany (ss : List Section) : hasPhase p ss = (ss.map Section.phase).any (· == p) := by
    rw [List.any_map]
    rfl
  rw [hany, hany, map_eq_of_forall₂ h fun _ _ hs => hs.phase_eq]

theorem orderIssues_eq (h : List.Forall₂ Section.Alike ss ss') (highest : Nat) :
    orderIssues highest ss = orderIssues highest ss' := by
  induction h generalizing highest with
  | nil => rfl
  | cons hs _ ih =>
    simp only [orderIssues, hs.phase_eq, hs.heading_eq, hs.first_eq, ih]

/-- What is said about the sections of a phase without certain keywords. -/
theorem idle_eq (h : List.Forall₂ Section.Alike ss ss') (p : Phase) (keywords : List Keyword)
    {issue : Section → Issue} (hissue : ∀ s s', Section.Alike s s' → issue s = issue s') :
    ((ss.filter fun s => s.phase == p && !mentions keywords (sectionBody s)).map issue) =
      (ss'.filter fun s => s.phase == p && !mentions keywords (sectionBody s)).map issue := by
  refine map_eq_of_forall₂ (List.rel_filter (fun s s' hs => ?_) h) hissue
  simp only [hs.phase_eq, hs.mentions_eq]

/-- The same is said about the phases of documents with sections that are alike. -/
theorem phases_eq {d d' : Document} (htype : d.fileType = d'.fileType)
    (h : List.Forall₂ Section.Alike d.sections d'.sections) : phases d = phases d' := by
  have hacts : idleActs d.sections = idleActs d'.sections :=
    idle_eq h .act _ fun _ _ hs => by rw [hs.first_eq]
  have hasserts : idleAsserts d.sections = idleAsserts d'.sections :=
    idle_eq h .assert _ fun _ _ hs => by rw [hs.first_eq]
  simp only [phases, htype, missingPhases, hasPhase_eq h, orderIssues_eq h, hacts, hasserts]

end Check

end ScriptAudit
