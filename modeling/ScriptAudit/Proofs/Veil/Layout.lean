import Mathlib.Data.List.Forall2
import ScriptAudit.Proofs.Document.Blocks
import ScriptAudit.Proofs.Text.Password

/-!
# A line of a code block in two versions

Two documents are the same but for one line, which is `l` in the first and `l'` in the second. When
it stands inside of a fence and closes none in either version, all lines keep their roles
(`Line.forall₂_ofLines`), the headings are the same (`headings_eq_of_twin`), and the code blocks
differ in this line only (`forall₂_scriptBlocks`). A line with a password closes no fence
(`Fence.closes_enclosed`).
-/

namespace ScriptAudit

/-- The marks of a fence are all the same, but a colon is no at sign. -/
theorem Fence.closes_enclosed (marks p t s : Text) : closes marks (t ++ (enclosed p ++ s)) = false := by
  have hmem (a : Char) (ha : a = ':' ∨ a = '@') : a ∈ Text.trim (t ++ (enclosed p ++ s)) := by
    rw [Text.trim_enclosed, enclosed]
    rcases ha with rfl | rfl <;> simp
  rw [closes, ← Bool.not_eq_true]
  intro h
  simp only [Bool.and_eq_true, List.all_eq_true, beq_iff_eq] at h
  have hcolon := h.1.2 ':' (hmem ':' (Or.inl rfl))
  rw [← h.1.2 '@' (hmem '@' (Or.inr rfl))] at hcolon
  exact absurd hcolon (by decide)

/-- Two texts that are the same, or the two versions of the line. -/
def Text.Twin (l l' s t : Text) : Prop := s = t ∨ s = l ∧ t = l'

/-- Two numbered lines that are the same but for their version. -/
structure CodeBlock.LineTwin (l l' : Text) (a b : Nat × Text) : Prop where
  number_eq : a.1 = b.1
  text_twin : Text.Twin l l' a.2 b.2

/-- Two code blocks that are the same but for the version of the line. -/
structure CodeBlock.Twin (l l' : Text) (a b : CodeBlock) : Prop where
  fence_eq : a.fence = b.fence
  lines_twin : List.Forall₂ (CodeBlock.LineTwin l l') a.lines b.lines

/-- Two lines of a document that are the same but for their version, which only code has. -/
structure Line.Twin (l l' : Text) (a b : Line) : Prop where
  number_eq : a.number = b.number
  role_eq : a.role = b.role
  text_twin : a.text = b.text ∨ a.role = .code ∧ a.text = l ∧ b.text = l'

theorem Line.Twin.refl {l l' : Text} (a : Line) : Line.Twin l l' a a := ⟨rfl, rfl, Or.inl rfl⟩

section

variable {l l' : Text}

/-- Inside of a fence either version leaves the roles of all lines as they are. -/
theorem Line.forall₂_follow (hl : ∀ marks, Fence.closes marks l = false)
    (hl' : ∀ marks, Fence.closes marks l' = false) {fence : Option Fence} {f : Fence}
    {above : List Text} (hopen : above.foldl Fence.openAfter fence = some f) (n : Nat)
    (below : List Text) :
    List.Forall₂ (Line.Twin l l') (follow n fence (above ++ l :: below))
      (follow n fence (above ++ l' :: below)) := by
  induction above generalizing n fence with
  | nil =>
    obtain rfl : fence = some f := hopen
    rw [List.nil_append, List.nil_append, follow_cons, follow_cons]
    refine .cons ⟨rfl, ?_, Or.inr ⟨?_, rfl, rfl⟩⟩ ?_
    · simp [Role.ofLine, hl, hl']
    · simp [Role.ofLine, hl]
    · simp only [Fence.openAfter, hl, hl']
      exact List.forall₂_same.2 fun a _ => .refl a
  | cons k above ih =>
    rw [List.cons_append, List.cons_append, follow_cons, follow_cons]
    exact .cons (.refl _) (ih hopen (n + 1))

/-- The lines of a body in which the line stands inside of a fence. -/
theorem Line.forall₂_ofLines (hl : ∀ marks, Fence.closes marks l = false)
    (hl' : ∀ marks, Fence.closes marks l' = false) {start : Nat} {above below : List Text} {f : Fence}
    (hcontent : Content start (above ++ l :: below) f (above.length + 1) l) :
    List.Forall₂ (Line.Twin l l') (ofLines start (above ++ l :: below))
      (ofLines start (above ++ l' :: below)) := by
  have hstart : start ≤ above.length := Nat.lt_succ_iff.1 hcontent.start_lt
  have hopen := hcontent.isOpen
  rw [Nat.add_sub_cancel, List.take_left] at hopen
  rw [ofLines_eq_follow, ofLines_eq_follow, List.drop_append_of_le_length hstart,
    List.drop_append_of_le_length hstart]
  exact forall₂_follow hl hl' hopen (start + 1) below

/-- The code that an open block goes on with, and the further blocks. -/
theorem forall₂_splitBlocks {ls ls' : List Line} (h : List.Forall₂ (Line.Twin l l') ls ls') :
    List.Forall₂ (CodeBlock.LineTwin l l') (splitBlocks ls).1 (splitBlocks ls').1 ∧
      List.Forall₂ (CodeBlock.Twin l l') (splitBlocks ls).2 (splitBlocks ls').2 := by
  induction h with
  | nil => exact ⟨.nil, .nil⟩
  | @cons a b ls ls' hab _ ih =>
    obtain ⟨hcode, hblocks⟩ := ih
    rw [splitBlocks, splitBlocks, ← hab.role_eq]
    cases a.role with
    | opens f => exact ⟨.nil, .cons ⟨rfl, hcode⟩ hblocks⟩
    | code => exact ⟨.cons ⟨hab.number_eq, hab.text_twin.imp_right And.right⟩ hcode, hblocks⟩
    | closes => exact ⟨.nil, hblocks⟩
    | prose => exact ⟨.nil, hblocks⟩

theorem forall₂_scriptBlocks {ls ls' : List Line} (h : List.Forall₂ (Line.Twin l l') ls ls') :
    List.Forall₂ (CodeBlock.Twin l l') (scriptBlocks ls) (scriptBlocks ls') := by
  refine List.rel_filter (fun b b' hb => ?_) (forall₂_splitBlocks h).2
  show b.fence.opensScript = true ↔ b'.fence.opensScript = true
  rw [hb.fence_eq]

/-- Headings stand in the running text. -/
theorem headingsFrom_eq_of_twin {ls ls' : List Line} (h : List.Forall₂ (Line.Twin l l') ls ls')
    (paragraph : List (Nat × Text)) : headingsFrom paragraph ls = headingsFrom paragraph ls' := by
  induction h generalizing paragraph with
  | nil => rfl
  | @cons a b ls ls' hab _ ih =>
    obtain ⟨number, text, role⟩ := a
    obtain ⟨number', text', role'⟩ := b
    obtain ⟨rfl, rfl, htext⟩ := hab
    cases role with
    | opens f => exact ih []
    | code => exact ih paragraph
    | closes => exact ih paragraph
    | prose =>
      obtain rfl : text = text' := htext.resolve_right fun h => Role.noConfusion h.1
      simp only [headingsFrom, ih]

theorem headings_eq_of_twin {ls ls' : List Line} (h : List.Forall₂ (Line.Twin l l') ls ls') :
    headings ls = headings ls' :=
  headingsFrom_eq_of_twin h []

end

end ScriptAudit
