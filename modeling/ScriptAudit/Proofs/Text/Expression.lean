import Mathlib.Computability.Language
import ScriptAudit.Text.Basic

/-!
# Regular expressions

An `Expression` is a pattern over the characters of a text, and `Expression.language` the texts that
it stands for. `Expression.search` looks for one of them by backtracking: the choices are tried in
turn, the longer one first, and a choice is taken back when the rest of the text is refused. A text
may be read in very many ways; the search succeeds if there is one (`Expression.search_iff`).

* `Expression.mem_language_star_one`, `Expression.mem_language_plus_one` — repeated characters.
* `Expression.append_mem_language_star` — one more round of a repetition.
-/

open Computability

namespace ScriptAudit

/-- A pattern over characters. -/
inductive Expression
  /-- A character of a class. -/
  | one (p : Char → Bool)
  /-- One pattern directly behind another. -/
  | seq (e f : Expression)
  /-- A pattern that may be left out. -/
  | optional (e : Expression)
  /-- A pattern any number of times. -/
  | star (e : Expression)

namespace Expression

/-- A pattern at least once. -/
def plus (e : Expression) : Expression := .seq e (.star e)

/-- The texts that a pattern stands for. -/
def language : Expression → Language Char
  | one p => {t | ∃ c, p c = true ∧ t = [c]}
  | seq e f => e.language * f.language
  | optional e => 1 + e.language
  | star e => e.language∗

/-- Looks for a pattern at the start of a text such that `next` accepts what stands behind it. A
round of a repetition has to use up a character. -/
def search : Expression → (next : Text → Bool) → Text → Bool
  | one _, _, [] => false
  | one p, next, c :: t => p c && next t
  | seq e f, next, t => search e (fun rest => search f next rest) t
  | optional e, next, t => search e next t || next t
  | star e, next, t =>
    search e (fun rest => if rest.length < t.length then search (star e) next rest else false) t ||
      next t
termination_by e _ t => (sizeOf e, t.length)

/-- The end of a text, which may also be a line feed that ends it. -/
def atEnd (rest : Text) : Bool := rest.isEmpty || rest == ['\n']

/-! ## Languages -/

variable {e f : Expression} {p : Char → Bool} {s t : Text}

theorem mem_language_one : t ∈ (one p).language ↔ ∃ c, p c = true ∧ t = [c] := Iff.rfl

theorem mem_language_seq :
    t ∈ (seq e f).language ↔ ∃ u ∈ e.language, ∃ v ∈ f.language, u ++ v = t :=
  Language.mem_mul

theorem mem_language_optional : t ∈ (optional e).language ↔ t = [] ∨ t ∈ e.language := Iff.rfl

theorem nil_mem_language_star : [] ∈ (star e).language := Language.nil_mem_kstar _

theorem append_mem_language_star (hs : s ∈ e.language) (ht : t ∈ (star e).language) :
    s ++ t ∈ (star e).language := by
  obtain ⟨rounds, rfl, hrounds⟩ := Language.mem_kstar.1 ht
  exact Language.join_mem_kstar (L := s :: rounds) (List.forall_mem_cons.2 ⟨hs, hrounds⟩)

/-- A repetition is read round by round, and no round has to be empty. -/
theorem mem_language_star_iff : t ∈ (star e).language ↔
    t = [] ∨ ∃ u v, t = u ++ v ∧ u ≠ [] ∧ u ∈ e.language ∧ v ∈ (star e).language := by
  constructor
  · intro h
    obtain ⟨rounds, rfl, hrounds⟩ := Language.mem_kstar_iff_exists_nonempty.1 h
    cases rounds with
    | nil => exact Or.inl rfl
    | cons u rounds =>
      obtain ⟨⟨hu, hne⟩, hrounds⟩ := List.forall_mem_cons.1 hrounds
      have hrest : rounds.flatten ∈ (star e).language :=
        Language.join_mem_kstar fun y hy => (hrounds y hy).1
      exact Or.inr ⟨u, rounds.flatten, List.flatten_cons, hne, hu, hrest⟩
  · rintro (rfl | ⟨u, v, rfl, -, hu, hv⟩)
    · exact nil_mem_language_star
    · exact append_mem_language_star hu hv

/-- Characters of a class, any number of them. -/
theorem mem_language_star_one : t ∈ (star (one p)).language ↔ ∀ c ∈ t, p c = true := by
  constructor
  · intro h
    obtain ⟨rounds, rfl, hrounds⟩ := Language.mem_kstar.1 h
    intro c hc
    obtain ⟨round, hround, hc⟩ := List.mem_flatten.1 hc
    obtain ⟨d, hd, rfl⟩ := mem_language_one.1 (hrounds round hround)
    rwa [List.mem_singleton.1 hc]
  · intro h
    induction t with
    | nil => exact nil_mem_language_star
    | cons c t ih =>
      obtain ⟨hc, ht⟩ := List.forall_mem_cons.1 h
      exact append_mem_language_star (mem_language_one.2 ⟨c, hc, rfl⟩) (ih ht)

/-- Characters of a class, at least one of them. -/
theorem mem_language_plus_one :
    t ∈ (plus (one p)).language ↔ ∃ c u, t = c :: u ∧ p c = true ∧ ∀ d ∈ u, p d = true := by
  rw [plus, mem_language_seq]
  constructor
  · rintro ⟨_, ⟨c, hc, rfl⟩, u, hu, rfl⟩
    exact ⟨c, u, rfl, hc, mem_language_star_one.1 hu⟩
  · rintro ⟨c, u, rfl, hc, hu⟩
    exact ⟨[c], ⟨c, hc, rfl⟩, u, mem_language_star_one.2 hu, rfl⟩

/-! ## Backtracking -/

/-- A start of the text that belongs to the language leaves a rest that is accepted. -/
def Splits (e : Expression) (next : Text → Bool) (t : Text) : Prop :=
  ∃ u v, t = u ++ v ∧ u ∈ e.language ∧ next v = true

theorem splits_one (next : Text → Bool) (c : Char) (t : Text) :
    Splits (one p) next (c :: t) ↔ p c = true ∧ next t = true := by
  constructor
  · rintro ⟨_, v, heq, ⟨d, hd, rfl⟩, hnext⟩
    obtain ⟨rfl, rfl⟩ := List.cons.inj heq
    exact ⟨hd, hnext⟩
  · rintro ⟨hc, hnext⟩
    exact ⟨[c], t, rfl, ⟨c, hc, rfl⟩, hnext⟩

theorem splits_seq (next : Text → Bool) (t : Text) :
    Splits (seq e f) next t ↔
      ∃ u v, t = u ++ v ∧ u ∈ e.language ∧ Splits f next v := by
  constructor
  · rintro ⟨_, w, rfl, hmem, hnext⟩
    obtain ⟨u, hu, v, hv, rfl⟩ := mem_language_seq.1 hmem
    exact ⟨u, v ++ w, List.append_assoc u v w, hu, v, w, rfl, hv, hnext⟩
  · rintro ⟨u, _, rfl, hu, v, w, rfl, hv, hnext⟩
    exact ⟨u ++ v, w, (List.append_assoc u v w).symm, mem_language_seq.2 ⟨u, hu, v, hv, rfl⟩, hnext⟩

theorem splits_optional (next : Text → Bool) (t : Text) :
    Splits (optional e) next t ↔ Splits e next t ∨ next t = true := by
  constructor
  · rintro ⟨u, v, rfl, rfl | hu, hnext⟩
    · exact Or.inr hnext
    · exact Or.inl ⟨u, v, rfl, hu, hnext⟩
  · rintro (⟨u, v, rfl, hu, hnext⟩ | hnext)
    · exact ⟨u, v, rfl, Or.inr hu, hnext⟩
    · exact ⟨[], t, rfl, Or.inl rfl, hnext⟩

/-- A repetition ends, or a round of it uses up a part of the text. -/
theorem splits_star (next : Text → Bool) (t : Text) :
    Splits (star e) next t ↔
      (∃ u v, t = u ++ v ∧ u ∈ e.language ∧ v.length < t.length ∧ Splits (star e) next v) ∨
        next t = true := by
  constructor
  · rintro ⟨u, w, rfl, hmem, hnext⟩
    rcases mem_language_star_iff.1 hmem with rfl | ⟨u, v, rfl, hne, hu, hv⟩
    · exact Or.inr hnext
    · have hpos : 0 < u.length := List.length_pos_of_ne_nil hne
      refine Or.inl ⟨u, v ++ w, List.append_assoc u v w, hu, ?_, v, w, rfl, hv, hnext⟩
      simp only [List.length_append]
      omega
  · rintro (⟨u, _, rfl, hu, -, v, w, rfl, hv, hnext⟩ | hnext)
    · exact ⟨u ++ v, w, (List.append_assoc u v w).symm, append_mem_language_star hu hv, hnext⟩
    · exact ⟨[], t, rfl, nil_mem_language_star, hnext⟩

/-- **Backtracking is sound and complete.** It succeeds exactly if the text begins with a text of
the language such that the rest is accepted. -/
theorem search_iff (e : Expression) (next : Text → Bool) (t : Text) :
    search e next t = true ↔ Splits e next t := by
  induction e generalizing next t with
  | one p =>
    cases t with
    | nil =>
      rw [search]
      refine iff_of_false Bool.false_ne_true ?_
      rintro ⟨_, v, heq, ⟨c, -, rfl⟩, -⟩
      cases heq
    | cons c t => rw [search, Bool.and_eq_true, splits_one]
  | seq e f ihe ihf =>
    rw [search, ihe, splits_seq]
    simp only [Splits, ihf]
  | optional e ih => rw [search, Bool.or_eq_true, ih, splits_optional]
  | star e ih =>
    -- the rest behind a round is shorter than the text
    induction h : t.length using Nat.strong_induction_on generalizing t with
    | h n ihn =>
      subst h
      rw [search, Bool.or_eq_true, ih, splits_star]
      have hround (v : Text) :
          (if v.length < t.length then search (star e) next v else false) = true ↔
            v.length < t.length ∧ Splits (star e) next v := by
        split
        · next hlt => rw [ihn v.length hlt v rfl, and_iff_right hlt]
        · next hlt => exact iff_of_false Bool.false_ne_true fun h => hlt h.1
      simp only [Splits, hround]

/-- A text without a line feed at its end is matched as a whole. -/
theorem search_atEnd_iff (hlast : t.getLast? ≠ some '\n') :
    search e atEnd t = true ↔ t ∈ e.language := by
  rw [search_iff]
  constructor
  · rintro ⟨u, v, rfl, hu, hv⟩
    rw [atEnd, Bool.or_eq_true, List.isEmpty_iff, beq_iff_eq] at hv
    rcases hv with rfl | rfl
    · rwa [List.append_nil]
    · exact absurd List.getLast?_concat hlast
  · intro h
    exact ⟨t, [], (List.append_nil t).symm, h, rfl⟩

end Expression

end ScriptAudit
