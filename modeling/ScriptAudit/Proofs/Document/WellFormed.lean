import Mathlib.Computability.DFA
import Mathlib.Data.List.TFAE
import Mathlib.Tactic.TFAE
import ScriptAudit.Proofs.Document.Grammar
import ScriptAudit.Proofs.Text.Expression

/-!
# Well-formed identifiers

Which texts are identifiers can be said in three ways: by what stands at each position
(`Identifier.Grammatical`), by a regular expression that is matched by backtracking
(`Identifier.expression`), and by an automaton that reads every character once
(`Identifier.automaton`). They agree on every text, and `Identifier.isValid` decides them
(`Identifier.isValid_tfae`).

The expression can read one identifier in many ways, since a dot may belong to a name or stand in
front of the next one. `Identifier.Rest` reads it in one way only, and all three are compared to it.
-/

namespace ScriptAudit

namespace Identifier

/-- A well-formed identifier is a character of a name and what may follow it. -/
theorem isValid_iff {t : Text} : isValid t = true ↔
    ∃ c u, Text.trim t = c :: u ∧ InName c ∧ Rest u := by
  rw [isValid]
  split
  · next c u heq => simp [heq, afterName_iff, isNameChar_iff]
  · next heq => simp [heq]

/-! ## By an expression -/

/-- Characters of a name. -/
def nameExpression : Expression := .plus (.one isNameChar)

/-- Arguments in parentheses, or nothing. -/
def callExpression : Expression :=
  .optional (.seq (.one (· == '(')) (.seq (.star (.one isArgumentChar)) (.one (· == ')'))))

/-- One more name behind a dot. -/
def memberExpression : Expression := .seq (.one (· == '.')) (.seq nameExpression callExpression)

/-- Names with dots between them, each with arguments or without. -/
def expression : Expression := .seq nameExpression (.seq callExpression (.star memberExpression))

section

open Expression

variable {t u v : Text}

theorem mem_callExpression : t ∈ callExpression.language ↔
    t = [] ∨ ∃ a, t = Text.call a ∧ ∀ c ∈ a, InArgument c := by
  simp only [callExpression, mem_language_optional, mem_language_seq, mem_language_star_one,
    mem_language_one, beq_iff_eq, isArgumentChar_iff]
  refine or_congr_right ?_
  constructor
  · rintro ⟨_, ⟨_, rfl, rfl⟩, _, ⟨a, ha, _, ⟨_, rfl, rfl⟩, rfl⟩, rfl⟩
    exact ⟨a, rfl, ha⟩
  · rintro ⟨a, rfl, ha⟩
    exact ⟨['('], ⟨'(', rfl, rfl⟩, a ++ [')'], ⟨a, ha, [')'], ⟨')', rfl, rfl⟩, rfl⟩, rfl⟩

theorem mem_memberExpression : t ∈ memberExpression.language ↔
    ∃ c n u, t = '.' :: c :: (n ++ u) ∧ InName c ∧ (∀ d ∈ n, InName d) ∧
      u ∈ callExpression.language := by
  simp only [memberExpression, nameExpression, mem_language_seq, mem_language_plus_one,
    mem_language_one, beq_iff_eq, isNameChar_iff]
  constructor
  · rintro ⟨_, ⟨_, rfl, rfl⟩, _, ⟨_, ⟨c, n, rfl, hc, hn⟩, u, hu, rfl⟩, rfl⟩
    exact ⟨c, n, u, rfl, hc, hn, hu⟩
  · rintro ⟨c, n, u, rfl, hc, hn, hu⟩
    exact ⟨['.'], ⟨'.', rfl, rfl⟩, c :: (n ++ u), ⟨c :: n, ⟨c, n, rfl, hc, hn⟩, u, hu, rfl⟩, rfl⟩

theorem mem_expression : t ∈ expression.language ↔
    ∃ c n u v, t = c :: (n ++ (u ++ v)) ∧ InName c ∧ (∀ d ∈ n, InName d) ∧
      u ∈ callExpression.language ∧ v ∈ (star memberExpression).language := by
  simp only [expression, nameExpression, mem_language_seq, mem_language_plus_one, isNameChar_iff]
  constructor
  · rintro ⟨_, ⟨c, n, rfl, hc, hn⟩, _, ⟨u, hu, v, hv, rfl⟩, rfl⟩
    exact ⟨c, n, u, v, rfl, hc, hn, hu, hv⟩
  · rintro ⟨c, n, u, v, rfl, hc, hn, hu, hv⟩
    exact ⟨c :: n, ⟨c, n, rfl, hc, hn⟩, u ++ v, ⟨u, hu, v, hv, rfl⟩, rfl⟩

theorem rest_of_call (hu : u ∈ callExpression.language) (hv : BehindCall v) : Rest (u ++ v) := by
  rcases mem_callExpression.1 hu with rfl | ⟨a, rfl, ha⟩
  · exact hv.rest
  · exact .of_behindCall ha hv

/-- Further names, in whichever way they are cut, are what may stand behind a call. -/
theorem behindCall_of_members (h : t ∈ (star memberExpression).language) : BehindCall t := by
  induction hlength : t.length using Nat.strong_induction_on generalizing t with
  | h n ih =>
    subst hlength
    rcases mem_language_star_iff.1 h with rfl | ⟨_, v, rfl, -, hmember, hv⟩
    · exact Or.inl rfl
    · obtain ⟨c, n, u, rfl, hc, hn, hu⟩ := mem_memberExpression.1 hmember
      have hbehind : BehindCall v := ih v.length (by simp; omega) hv rfl
      refine Or.inr ⟨c, n ++ (u ++ v), by simp, hc, ?_⟩
      exact (rest_of_call hu hbehind).append hn

/-- What may follow a name can be cut into the rest of the name, a call and further names. -/
theorem Rest.exists_members (h : Rest t) : ∃ n u v, t = n ++ (u ++ v) ∧
    (∀ d ∈ n, InName d) ∧ u ∈ callExpression.language ∧
      v ∈ (star memberExpression).language := by
  have hnone : [] ∈ callExpression.language := mem_callExpression.2 (Or.inl rfl)
  have hcall {a : Text} (ha : ∀ c ∈ a, InArgument c) :
      Text.call a ∈ callExpression.language := mem_callExpression.2 (Or.inr ⟨a, rfl, ha⟩)
  induction h with
  | none => exact ⟨[], [], [], rfl, by simp, hnone, nil_mem_language_star⟩
  | @name c t hc _ ih =>
    obtain ⟨n, u, v, rfl, hn, hu, hv⟩ := ih
    exact ⟨c :: n, u, v, rfl, List.forall_mem_cons.2 ⟨hc, hn⟩, hu, hv⟩
  | @lastCall a ha => exact ⟨[], Text.call a, [], by simp, by simp, hcall ha, nil_mem_language_star⟩
  | @call a c t ha hc _ ih =>
    obtain ⟨n, u, v, rfl, hn, hu, hv⟩ := ih
    have hmember : '.' :: c :: (n ++ u) ∈ memberExpression.language :=
      mem_memberExpression.2 ⟨c, n, u, rfl, hc, hn, hu⟩
    refine ⟨[], Text.call a, _, ?_, by simp, hcall ha, append_mem_language_star hmember hv⟩
    simp

/-- The expression stands for the well-formed identifiers. -/
theorem mem_expression_iff : t ∈ expression.language ↔
    ∃ c u, t = c :: u ∧ InName c ∧ Rest u := by
  rw [mem_expression]
  constructor
  · rintro ⟨c, n, u, v, rfl, hc, hn, hu, hv⟩
    exact ⟨c, n ++ (u ++ v), rfl, hc, (rest_of_call hu (behindCall_of_members hv)).append hn⟩
  · rintro ⟨c, t, rfl, hc, ht⟩
    obtain ⟨n, u, v, rfl, hn, hu, hv⟩ := ht.exists_members
    exact ⟨c, n, u, v, rfl, hc, hn, hu, hv⟩

end

/-! ## By an automaton -/

/-- What has been read of an identifier. -/
inductive State
  /-- A name has to follow. -/
  | expectsName
  | inName
  | inCall
  | behindCall
  | failed

namespace State

/-- Reads one character. -/
def next : State → Char → State
  | expectsName, c => if isNameChar c then inName else failed
  | inName, c => if c = '(' then inCall else if isNameChar c then inName else failed
  | inCall, c => if c = ')' then behindCall else if isArgumentChar c then inCall else failed
  | behindCall, c => if c = '.' then expectsName else failed
  | failed, _ => failed

/-- An identifier may end in a name or behind a call. -/
def isFinal : State → Bool
  | inName | behindCall => true
  | expectsName | inCall | failed => false

end State

/-- Reads an identifier from left to right, each character once. -/
def automaton : DFA Char State where
  step := State.next
  start := .expectsName
  accept := {s | s.isFinal = true}

theorem nil_mem_acceptsFrom_iff (s : State) :
    [] ∈ automaton.acceptsFrom s ↔ s.isFinal = true := Iff.rfl

theorem cons_mem_acceptsFrom_iff (s : State) (c : Char) (t : Text) :
    c :: t ∈ automaton.acceptsFrom s ↔ t ∈ automaton.acceptsFrom (s.next c) := Iff.rfl

theorem notMem_acceptsFrom_failed (t : Text) : t ∉ automaton.acceptsFrom .failed := by
  induction t with
  | nil => exact Bool.false_ne_true
  | cons c t ih => exact ih

/-- A character that is refused is never made up for. -/
theorem mem_acceptsFrom_ite (p : Prop) [Decidable p] (s : State) (t : Text) :
    t ∈ automaton.acceptsFrom (if p then s else .failed) ↔ p ∧ t ∈ automaton.acceptsFrom s := by
  split
  · next hp => rw [and_iff_right hp]
  · next hp => exact iff_of_false (notMem_acceptsFrom_failed t) fun h => hp h.1

mutual

theorem mem_acceptsFrom_inName : ∀ t, t ∈ automaton.acceptsFrom .inName ↔ afterName t = true
  | [] => Iff.rfl
  | c :: t => by
    rw [cons_mem_acceptsFrom_iff, State.next]
    by_cases hopen : c = '('
    · subst hopen
      exact mem_acceptsFrom_inCall t
    · rw [if_neg hopen, mem_acceptsFrom_ite, mem_acceptsFrom_inName t, afterName_of_ne hopen,
        Bool.and_eq_true]

theorem mem_acceptsFrom_inCall : ∀ t, t ∈ automaton.acceptsFrom .inCall ↔ inCall t = true
  | [] => Iff.rfl
  | c :: t => by
    rw [cons_mem_acceptsFrom_iff, State.next]
    by_cases hclose : c = ')'
    · subst hclose
      exact mem_acceptsFrom_behindCall t
    · rw [if_neg hclose, mem_acceptsFrom_ite, mem_acceptsFrom_inCall t, inCall_of_ne hclose,
        Bool.and_eq_true]

theorem mem_acceptsFrom_behindCall : ∀ t,
    t ∈ automaton.acceptsFrom .behindCall ↔ afterCall t = true
  | [] => Iff.rfl
  | [c] => by
    rw [cons_mem_acceptsFrom_iff, State.next, mem_acceptsFrom_ite, nil_mem_acceptsFrom_iff]
    by_cases hdot : c = '.'
    · subst hdot
      simp [State.isFinal, afterCall]
    · simp [hdot, afterCall_of_ne hdot]
  | c :: d :: t => by
    rw [cons_mem_acceptsFrom_iff, State.next, mem_acceptsFrom_ite, cons_mem_acceptsFrom_iff,
      State.next, mem_acceptsFrom_ite, mem_acceptsFrom_inName t]
    by_cases hdot : c = '.'
    · subst hdot
      rw [afterCall, Bool.and_eq_true, and_iff_right rfl]
    · simp [hdot, afterCall_of_ne hdot]

end

/-- The automaton accepts the well-formed identifiers. -/
theorem mem_accepts_iff {t : Text} : t ∈ automaton.accepts ↔
    ∃ c u, t = c :: u ∧ InName c ∧ Rest u := by
  cases t with
  | nil => simp [DFA.mem_accepts, automaton, State.isFinal]
  | cons c u =>
    show u ∈ automaton.acceptsFrom (State.next .expectsName c) ↔ _
    rw [State.next, mem_acceptsFrom_ite, mem_acceptsFrom_inName, afterName_iff, isNameChar_iff]
    simp

/-- Whether a text has the form of an identifier shows when it is read once from left to right. -/
instance : DecidablePred Grammatical := fun t =>
  decidable_of_iff ((t.foldl State.next .expectsName).isFinal = true) <|
    (mem_accepts_iff (t := t)).trans grammatical_iff.symm

/-! ## The three ways agree -/

/-- **Well-formed identifiers.** Whether a text is one, apart from blanks around it, is the same by
its positions, by the automaton and by the expression. -/
theorem isValid_tfae (t : Text) : List.TFAE [
    isValid t = true,
    Grammatical (Text.trim t),
    Text.trim t ∈ automaton.accepts,
    expression.search Expression.atEnd (Text.trim t) = true] := by
  have hlast : (Text.trim t).getLast? ≠ some '\n' := fun heq =>
    absurd (Text.isBlank_getLast_trim heq) (by decide)
  tfae_have 1 ↔ 2 := isValid_iff.trans grammatical_iff.symm
  tfae_have 1 ↔ 3 := isValid_iff.trans mem_accepts_iff.symm
  tfae_have 1 ↔ 4 := by
    rw [Expression.search_atEnd_iff hlast, mem_expression_iff, isValid_iff]
  tfae_finish

/-- A dot may follow a dot; a parenthesis may not follow a closed call. -/
example : Grammatical "Items(0, 'a')..b" ∧ ¬ Grammatical "Items(0)(1)" := by decide

end Identifier

end ScriptAudit
