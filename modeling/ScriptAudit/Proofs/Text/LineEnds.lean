import ScriptAudit.Proofs.Text.Lines
import ScriptAudit.Proofs.Text.Words

/-!
# Carriage returns in front of line feeds

`withReturns` writes every line end of a text as a carriage return and a line feed. Runs of blanks
grow by this, all other runs stay as they are. Main statement: a text without carriage returns has
the same lines in both forms (`lines_withReturns`).
-/

namespace ScriptAudit.Text

/-- The text with a carriage return in front of each line feed. -/
def withReturns : Text → Text
  | [] => []
  | c :: cs => if c = '\n' then '\r' :: '\n' :: withReturns cs else c :: withReturns cs

@[simp] theorem withReturns_nil : withReturns [] = [] := rfl

@[simp] theorem withReturns_newline (cs : Text) :
    withReturns ('\n' :: cs) = '\r' :: '\n' :: withReturns cs := rfl

theorem withReturns_cons {c : Char} (h : c ≠ '\n') (cs : Text) :
    withReturns (c :: cs) = c :: withReturns cs := by
  rw [withReturns, if_neg h]

theorem withReturns_append (s t : Text) : withReturns (s ++ t) = withReturns s ++ withReturns t := by
  induction s with
  | nil => rfl
  | cons c s ih =>
    by_cases h : c = '\n'
    · subst h
      simp [ih]
    · rw [List.cons_append, withReturns_cons h, withReturns_cons h, ih, List.cons_append]

theorem withReturns_of_notMem {t : Text} (h : '\n' ∉ t) : withReturns t = t := by
  induction t with
  | nil => rfl
  | cons c t ih =>
    rw [List.mem_cons, not_or] at h
    rw [withReturns_cons (Ne.symm h.1), ih h.2]

theorem isEmpty_withReturns (t : Text) : (withReturns t).isEmpty = t.isEmpty := by
  cases t with
  | nil => rfl
  | cons c t => by_cases h : c = '\n' <;> simp [withReturns, h]

theorem count_newline_withReturns (t : Text) : (withReturns t).count '\n' = t.count '\n' := by
  induction t with
  | nil => rfl
  | cons c t ih =>
    by_cases h : c = '\n'
    · subst h
      simp [ih]
    · rw [withReturns_cons h, List.count_cons_of_ne h, List.count_cons_of_ne h, ih]

/-! ## Runs of characters -/

section

variable {p : Char → Bool} (h : p '\r' = p '\n')
include h

/-- A run ends at the same place, whether its characters go on over line ends or stop at them. -/
theorem takeWhile_withReturns (t : Text) :
    (withReturns t).takeWhile p = withReturns (t.takeWhile p) := by
  induction t with
  | nil => rfl
  | cons c t ih =>
    by_cases hc : c = '\n'
    · subst hc
      cases hp : p '\n' <;> simp [h, hp, ih]
    · rw [withReturns_cons hc, List.takeWhile_cons, List.takeWhile_cons, ih]
      split
      · rw [withReturns_cons hc]
      · rfl

theorem dropWhile_withReturns (t : Text) :
    (withReturns t).dropWhile p = withReturns (t.dropWhile p) := by
  induction t with
  | nil => rfl
  | cons c t ih =>
    by_cases hc : c = '\n'
    · subst hc
      cases hp : p '\n' <;> simp [h, hp, ih]
    · rw [withReturns_cons hc, List.dropWhile_cons, List.dropWhile_cons, ih]
      split
      · rfl
      · rw [withReturns_cons hc]

end

theorem isBlank_of_mem_withReturns {t : Text} (h : ∀ c ∈ t, isBlank c = true) :
    ∀ c ∈ withReturns t, isBlank c = true := by
  intro c hc
  rw [← List.takeWhile_eq_self_iff.2 h, ← takeWhile_withReturns (p := isBlank) rfl] at hc
  exact List.mem_takeWhile_imp hc

/-- Blanks at the end are trimmed off. -/
theorem trimRight_append_of_forall {b : Text} (h : ∀ c ∈ b, isBlank c = true) (t : Text) :
    trimRight (t ++ b) = trimRight t := by
  rw [trimRight, List.reverse_append,
    List.dropWhile_append_of_pos fun c hc => h c (List.mem_reverse.1 hc)]
  rfl

/-- A text is blank, or ends in blanks behind a character that is not. -/
theorem blank_or_exists_append_cons (t : Text) :
    (∀ c ∈ t, isBlank c = true) ∨
      ∃ u a b, t = u ++ a :: b ∧ isBlank a = false ∧ ∀ c ∈ b, isBlank c = true := by
  have hsplit := List.takeWhile_append_dropWhile (p := isBlank) (l := t.reverse)
  cases hrest : t.reverse.dropWhile isBlank with
  | nil => exact Or.inl fun c hc => List.dropWhile_eq_nil_iff.1 hrest c (List.mem_reverse.2 hc)
  | cons a v =>
    have ha : isBlank a = false := eq_false_of_mem_head?_dropWhile (by rw [hrest]; rfl)
    refine Or.inr ⟨v.reverse, a, (t.reverse.takeWhile isBlank).reverse, ?_, ha, fun c hc => ?_⟩
    · have := congrArg List.reverse hsplit
      rw [hrest] at this
      simpa using this.symm
    · exact List.mem_takeWhile_imp (List.mem_reverse.1 hc)

theorem trimRight_withReturns (t : Text) : trimRight (withReturns t) = withReturns (trimRight t) := by
  rcases blank_or_exists_append_cons t with h | ⟨u, a, b, rfl, ha, hb⟩
  · rw [← List.nil_append t, trimRight_append_of_forall h, List.nil_append,
      ← List.nil_append (withReturns t), trimRight_append_of_forall (isBlank_of_mem_withReturns h)]
    rfl
  · have hne : a ≠ '\n' := by
      rintro rfl
      exact absurd ha (by decide)
    have htrim {b : Text} (hb : ∀ c ∈ b, isBlank c = true) : trimRight b = [] :=
      trimRight_append_of_forall hb []
    rw [withReturns_append, withReturns_cons hne, trimRight_append_cons ha,
      trimRight_append_cons ha, htrim hb, htrim (isBlank_of_mem_withReturns hb),
      withReturns_append, withReturns_cons hne, withReturns_nil]

/-! ## Lines -/

/-- **Lines in both forms.** Each carriage return ends its line together with the line feed behind
it. -/
theorem lines_withReturns {t : Text} (h : '\r' ∉ t) : lines (withReturns t) = lines t := by
  induction t with
  | nil => rfl
  | cons c t ih =>
    rw [List.mem_cons, not_or] at h
    have ih := ih h.2
    by_cases hc : c = '\n'
    · subst hc
      rw [withReturns_newline, lines_break rfl, lines_break rfl]
      exact congrArg _ ih
    · rw [withReturns_cons hc]
      cases hb : isBreak c with
      | true =>
        have hreturn : (c == '\r') = false := by simpa using Ne.symm h.1
        rw [lines_break hb, lines_break hb, hreturn]
        exact congrArg _ ih
      | false =>
        rw [lines, linesFrom_of_isBreak_eq_false hb, ih, ← linesFrom_of_isBreak_eq_false hb false]
        rfl

end ScriptAudit.Text
