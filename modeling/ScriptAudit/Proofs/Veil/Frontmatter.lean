import ScriptAudit.Document.Basic
import ScriptAudit.Proofs.Document.Frontmatter
import ScriptAudit.Proofs.Text.Password

/-!
# A password in the body

A delimiter does not go beyond a character that is neither a dash nor a blank, and none begins in a
password. So the cut of a text into its head and its body is found in front of a password or behind
it, whatever the password is (`Frontmatter.cut?_enclosed`). When it is found in front of it, the
head of the text is the same for every password (`Document.head_enclosed`).
-/

namespace ScriptAudit

namespace Frontmatter

/-! ## Delimiters -/

section

variable {a : Char} (hblank : isBlank a = false) (hdash : a ≠ '-')

include hblank hdash

/-- A delimiter is found without a look behind a character that belongs to none. -/
theorem delimiter?_append_cons (t s s' : Text) : delimiter? (t ++ a :: s) = delimiter? (t ++ a :: s') := by
  have hdash' : (a == '-') = false := by simpa using hdash
  have hend (s : Text) : (((t.dropWhile (· == '-')).takeWhile isBlank).length ==
      (t.dropWhile (· == '-') ++ a :: s).length) = false := by
    have hle := (List.takeWhile_prefix isBlank (l := t.dropWhile (· == '-'))).length_le
    rw [List.length_append, beq_eq_false_iff_ne, List.length_cons]
    omega
  have hrest (s : Text) : (t ++ a :: s).drop (t.takeWhile (· == '-')).length =
      t.dropWhile (· == '-') ++ a :: s := by
    rw [← Text.takeWhile_append_cons (p := (· == '-')) hdash' t s, Text.drop_length_takeWhile,
      Text.dropWhile_append_cons (p := (· == '-')) hdash']
  simp only [delimiter?, Text.takeWhile_append_cons (p := (· == '-')) hdash', hrest,
    Text.takeWhile_append_cons hblank, hend]

/-- A delimiter ends in front of a character that belongs to none. -/
theorem le_length_of_delimiter? {t s : Text} {n : Nat} (h : delimiter? (t ++ a :: s) = some n) :
    n ≤ t.length := by
  obtain ⟨dashes, margin, heq, hdashes, -, hmargin, -⟩ := delimiter?_eq_some h
  by_contra hlt
  rw [Nat.not_le] at hlt
  have htake : (t ++ a :: s).take n = dashes ++ margin := by
    rw [← List.append_assoc] at heq
    exact List.append_cancel_right ((List.take_append_drop n _).trans heq)
  have hmem : a ∈ (t ++ a :: s).take n := by
    rw [List.take_append, List.take_of_length_le (by omega)]
    obtain ⟨k, hk⟩ : ∃ k, n - t.length = k + 1 := ⟨n - t.length - 1, by omega⟩
    simp [hk]
  rw [htake] at hmem
  rcases List.mem_append.1 hmem with hmem | hmem
  · exact hdash (hdashes a hmem)
  · rw [hmargin a hmem] at hblank
    exact Bool.false_ne_true hblank.symm

end

/-! ## Cuts -/

/-- No delimiter begins where no line begins. -/
theorem cut?_append_of_forall {u : Text} (hu : ∀ c ∈ u, c ≠ '\n') (t : Text) :
    cut? false (u ++ t) = (cut? false t).map fun (before, after) => (u ++ before, after) := by
  induction u with
  | nil => simp
  | cons c u ih =>
    have hc : (c == '\n') = false := by simpa using hu c List.mem_cons_self
    rw [List.cons_append, cut?, hc, if_neg Bool.false_ne_true,
      ih fun d hd => hu d (List.mem_cons_of_mem c hd)]
    simp [Function.comp_def]

/-- A text is cut in front of a password or behind it, whatever the password is. -/
theorem cut?_enclosed (lineStart : Bool) (t s : Text) :
    (∃ before left rest, t = left ++ rest ∧ ∀ p, IsPassword p →
      cut? lineStart (t ++ (enclosed p ++ s)) = some (before, rest ++ (enclosed p ++ s))) ∨
    ∀ p, IsPassword p → cut? lineStart (t ++ (enclosed p ++ s)) =
      (cut? false s).map fun (before, after) => (t ++ (enclosed p ++ before), after) := by
  have hblank : isBlank ':' = false := by decide
  have hdash : ':' ≠ '-' := by decide
  induction t generalizing lineStart with
  | nil =>
    right
    intro p hp
    have hnone : (if lineStart then delimiter? (':' :: (p ++ ['@'] ++ s)) else none) = none := by
      cases lineStart <;> rfl
    have hu : ∀ c ∈ p ++ ['@'], c ≠ '\n' := by
      intro c hc
      have hblank := hp.isBlank_eq_false c (List.mem_cons_of_mem _ hc)
      rintro rfl
      exact absurd hblank (by decide)
    rw [List.nil_append, enclosed, List.cons_append, cut?, hnone]
    show (cut? false _).map _ = _
    rw [cut?_append_of_forall hu]
    simp [Function.comp_def]
  | cons c t ih =>
    have hcolon (p : Text) : c :: t ++ (enclosed p ++ s) = c :: t ++ ':' :: (p ++ '@' :: s) := by
      rw [enclosed_append]
    cases hfound : if lineStart then delimiter? (c :: t ++ ':' :: s) else none with
    | some n =>
      left
      obtain ⟨rfl, hn⟩ : lineStart = true ∧ delimiter? (c :: t ++ ':' :: s) = some n := by
        cases lineStart
        · exact absurd hfound (by simp)
        · exact ⟨rfl, hfound⟩
      have hle := le_length_of_delimiter? hblank hdash hn
      refine ⟨[], (c :: t).take n, (c :: t).drop n, (List.take_append_drop n _).symm, fun p _ => ?_⟩
      rw [hcolon, List.cons_append, cut?, if_pos rfl, ← List.cons_append,
        delimiter?_append_cons hblank hdash (c :: t) _ s, hn]
      show some ([], _) = _
      rw [List.drop_append_of_le_length hle, enclosed_append]
    | none =>
      have hnone (p : Text) :
          (if lineStart then delimiter? (c :: t ++ ':' :: (p ++ '@' :: s)) else none) = none := by
        rw [delimiter?_append_cons hblank hdash (c :: t) _ s]
        exact hfound
      have hstep (p : Text) : cut? lineStart (c :: t ++ (enclosed p ++ s)) =
          (cut? (c == '\n') (t ++ (enclosed p ++ s))).map fun (before, after) =>
            (c :: before, after) := by
        rw [hcolon, List.cons_append, cut?, ← List.cons_append, hnone, enclosed_append]
      rcases ih (c == '\n') with ⟨before, left, rest, rfl, h⟩ | h
      · exact Or.inl ⟨c :: before, c :: left, rest, rfl, fun p hp => by rw [hstep, h p hp]; rfl⟩
      · refine Or.inr fun p hp => ?_
        rw [hstep, h p hp]
        simp [Function.comp_def]

/-- Where the frontmatter of a text ends, if it has one: in front of a password, with the same head
for every password, or behind it. -/
theorem split?_enclosed (front back : Text) :
    (∃ block left rest, front = left ++ rest ∧ ∀ p, IsPassword p →
      split? (front ++ (enclosed p ++ back)) = some ⟨block, rest ++ (enclosed p ++ back)⟩) ∨
    (∀ p, IsPassword p → split? (front ++ (enclosed p ++ back)) = none) ∨
    ∀ p, IsPassword p → ∃ f, split? (front ++ (enclosed p ++ back)) = some f ∧ f.body <:+ back := by
  have hblank : isBlank ':' = false := by decide
  have hdash : ':' ≠ '-' := by decide
  have hdelimiter (p : Text) :
      delimiter? (front ++ (enclosed p ++ back)) = delimiter? (front ++ ':' :: back) := by
    rw [enclosed_append, delimiter?_append_cons hblank hdash front _ back]
  cases hn : delimiter? (front ++ ':' :: back) with
  | none => exact Or.inr (Or.inl fun p _ => by rw [split?, hdelimiter, hn]; rfl)
  | some n =>
    have hle := le_length_of_delimiter? hblank hdash hn
    have hsplit (p : Text) : split? (front ++ (enclosed p ++ back)) =
        (cut? false (front.drop n ++ (enclosed p ++ back))).map fun (block, body) =>
          ⟨block, body⟩ := by
      rw [split?, hdelimiter, hn]
      show (cut? false ((front ++ (enclosed p ++ back)).drop n)).bind _ = _
      rw [List.drop_append_of_le_length hle]
      cases cut? false (front.drop n ++ (enclosed p ++ back)) <;> rfl
    rcases cut?_enclosed false (front.drop n) back with ⟨block, left, rest, hrest, h⟩ | h
    · left
      refine ⟨block, front.take n ++ left, rest, ?_, fun p hp => by rw [hsplit, h p hp]; rfl⟩
      rw [List.append_assoc, ← hrest, List.take_append_drop]
    · right
      cases hcut : cut? false back with
      | none => exact Or.inl fun p hp => by rw [hsplit, h p hp, hcut]; rfl
      | some cut =>
        obtain ⟨before, after⟩ := cut
        obtain ⟨m, rest, rfl, -, rfl, -⟩ := cut?_eq_some hcut
        refine Or.inr fun p hp => ⟨⟨front.drop n ++ (enclosed p ++ before), rest.drop m⟩, ?_,
          (List.drop_suffix m rest).trans (List.suffix_append before rest)⟩
        rw [hsplit, h p hp, hcut]
        rfl

/-- The lines of the head are counted in front of the body. -/
theorem bodyStart_append (block u v : Text) :
    bodyStart (u ++ v) ⟨block, v⟩ = (Text.trimRight u).count '\n' + 1 := by
  rw [bodyStart, List.length_append, Nat.add_sub_cancel, List.take_left]

end Frontmatter

namespace Document

/-- A password stands in the body of a text. -/
def InBody (t p back : Text) : Prop :=
  ∀ f, Frontmatter.split? t = some f → ∃ z, f.body = z ++ (enclosed p ++ back)

/-- The head of a text does not depend on a password in the body. -/
theorem head_enclosed [Yaml.Loader] {p q front back : Text} (hp : IsPassword p) (hq : IsPassword q)
    (hbody : InBody (front ++ (enclosed p ++ back)) p back) :
    head (front ++ (enclosed p ++ back)) = head (front ++ (enclosed q ++ back)) := by
  rcases Frontmatter.split?_enclosed front back with ⟨block, left, rest, rfl, h⟩ | h | h
  · rw [head, head, h p hp, h q hq]
    simp only [List.append_assoc, Frontmatter.bodyStart_append]
  · rw [head, head, h p hp, h q hq]
  · -- the body would be shorter than the password in it
    obtain ⟨f, hf, hsuffix⟩ := h p hp
    obtain ⟨z, hz⟩ := hbody f hf
    have hle := hsuffix.length_le
    rw [hz, enclosed] at hle
    simp only [List.length_append, List.length_cons] at hle
    omega

end Document

end ScriptAudit
