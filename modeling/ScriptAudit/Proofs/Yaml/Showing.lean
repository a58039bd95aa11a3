import Mathlib.Algebra.Group.Nat.Defs
import ScriptAudit.Proofs.Fault
import ScriptAudit.Yaml.Value

/-!
# Values inside messages

Nothing but an integer keeps a value from being shown: `Value.integers` are the integers in a
value, however deep inside of collections, and a value is `Showable` if none of them has more than
`Numeral.maxDigits` digits. The fault is the same wherever the integer is (`Value.shownWhen_text`).
-/

namespace ScriptAudit

/-! ## Showing -/

/-- An operation that answers under a condition, and otherwise fails because an integer cannot be
shown. -/
structure ShownWhen {α : Type} (p : Prop) (e : Except Fault α) : Prop where
  answers : p → Answers e
  fault : ¬ p → e = .error .integerShown

namespace ShownWhen

variable {α β : Type} {p q : Prop} {e : Except Fault α}

theorem answers_iff (h : ShownWhen p e) : Answers e ↔ p :=
  ⟨fun ha => by_contra fun hp => not_answers_error _ (h.fault hp ▸ ha), h.answers⟩

theorem eq_error_iff (h : ShownWhen p e) {f : Fault} :
    e = .error f ↔ f = .integerShown ∧ ¬ p := by
  constructor
  · intro he
    have hp : ¬ p := fun hp => by
      obtain ⟨a, rfl⟩ := h.answers hp
      cases he
    exact ⟨Except.error.inj (he.symm.trans (h.fault hp)), hp⟩
  · rintro ⟨rfl, hp⟩
    exact h.fault hp

theorem congr (h : ShownWhen p e) (hpq : p ↔ q) : ShownWhen q e := propext hpq ▸ h

theorem of_ok (a : α) (hp : p) : ShownWhen p (.ok a : Except Fault α) :=
  ⟨fun _ => answers_ok a, fun h => absurd hp h⟩

theorem of_pure (a : α) (hp : p) : ShownWhen p (pure a : Except Fault α) := of_ok a hp

/-- Two steps in a row. -/
theorem bind {f : α → Except Fault β} (he : ShownWhen p e) (hf : ∀ a, ShownWhen q (f a)) :
    ShownWhen (p ∧ q) (e >>= f) := by
  refine ⟨fun ⟨hp, hq⟩ => ?_, fun hpq => ?_⟩
  · obtain ⟨a, rfl⟩ := he.answers hp
    exact (hf a).answers hq
  · by_cases hp : p
    · obtain ⟨a, rfl⟩ := he.answers hp
      exact (hf a).fault fun hq => hpq ⟨hp, hq⟩
    · rw [he.fault hp]
      rfl

/-- A step after which nothing can fail. -/
theorem bind_pure (he : ShownWhen p e) (f : α → β) : ShownWhen p (e >>= fun a => pure (f a)) :=
  (he.bind fun a => of_pure (f a) trivial).congr (iff_of_eq (and_true p))

/-- Two steps in a row, each with its own conditions of one kind. -/
theorem bind_append {ι : Type} {r : ι → Prop} {is js : List ι} {f : α → Except Fault β}
    (he : ShownWhen (∀ i ∈ is, r i) e) (hf : ∀ a, ShownWhen (∀ i ∈ js, r i) (f a)) :
    ShownWhen (∀ i ∈ is ++ js, r i) (e >>= f) :=
  (he.bind hf).congr List.forall_mem_append.symm

theorem mapM {γ : Type} {f : γ → Except Fault β} {r : γ → Prop} (h : ∀ x, ShownWhen (r x) (f x))
    (xs : List γ) : ShownWhen (∀ x ∈ xs, r x) (xs.mapM f) := by
  induction xs with
  | nil => exact of_ok [] nofun
  | cons x xs ih =>
    rw [List.mapM_cons]
    exact ((h x).bind fun _ => ih.bind_pure _).congr List.forall_mem_cons.symm

end ShownWhen

/-- Whether an integer has few enough digits to be shown. -/
def Brief (i : Int) : Prop := i.natAbs < 10 ^ Numeral.maxDigits

instance (i : Int) : Decidable (Brief i) := inferInstanceAs (Decidable (_ < _))

/-- The sign of an integer is not one of its digits. -/
theorem shownWhen_shownInt (i : Int) : ShownWhen (Brief i) (shownInt i) := by
  have hdigits (n : Nat) :
      Numeral.maxDigits < (Text.ofNat n).length ↔ ¬ n < 10 ^ Numeral.maxDigits := by
    rw [← Nat.not_le]
    exact not_congr (Nat.length_toDigits_le_iff (by decide) (by decide))
  have hlong :
      (Text.ofInt i).length > Numeral.maxDigits + (if i < 0 then 1 else 0) ↔ ¬ Brief i := by
    cases i with
    | ofNat n => exact hdigits n
    | negSucc n =>
      rw [if_pos (Int.negSucc_lt_zero n)]
      exact Nat.add_lt_add_iff_right.trans (hdigits (n + 1))
  rw [shownInt]
  by_cases hi : Brief i
  · rw [if_neg fun h => hlong.1 h hi]
    exact .of_ok _ hi
  · rw [if_pos (hlong.2 hi)]
    exact ⟨fun h => absurd h hi, fun _ => rfl⟩

namespace Yaml.Value

mutual

/-- The integers in a value. -/
def integers : Value → List Int
  | num (.int i) => [i]
  | list items => integersOf items
  | pair k v => k.integers ++ v.integers
  | set members => integersOf members
  | map entries => integersOfEntries entries
  | _ => []

/-- The integers in some values. -/
def integersOf : List Value → List Int
  | [] => []
  | v :: vs => v.integers ++ integersOf vs

/-- The integers in the entries of a mapping. -/
def integersOfEntries : List (Value × Value) → List Int
  | [] => []
  | (k, v) :: es => k.integers ++ (v.integers ++ integersOfEntries es)

end

/-- Whether a value can be shown. -/
def Showable (v : Value) : Prop := ∀ i ∈ v.integers, Brief i

instance (v : Value) : Decidable v.Showable := inferInstanceAs (Decidable (∀ i ∈ _, _))

theorem showable_of_integers_eq_nil {v : Value} (h : v.integers = []) : v.Showable := by
  rw [Showable, h]
  exact nofun

mutual

/-- By recursion on the value: what is inside of it is shown piece by piece. -/
theorem shownWhen_inner : ∀ v : Value, ShownWhen (∀ i ∈ v.integers, Brief i) v.inner
  | null => .of_ok _ nofun
  | bool _ => .of_ok _ nofun
  | num (.int i) => (shownWhen_shownInt i).congr List.forall_mem_singleton.symm
  | num (.float _) => .of_ok _ nofun
  | str _ => .of_ok _ nofun
  | bytes _ => .of_ok _ nofun
  | date _ => .of_ok _ nofun
  | moment _ => .of_ok _ nofun
  | list items => (shownWhen_innerItems items).bind_pure _
  | pair k v => (shownWhen_inner k).bind_append fun _ => (shownWhen_inner v).bind_pure _
  | set [] => .of_ok _ nofun
  | set (v :: vs) => (shownWhen_inner v).bind_append fun _ => (shownWhen_innerItems vs).bind_pure _
  | map entries => (shownWhen_innerEntries entries).bind_pure _
  | enclosing _ => .of_ok _ nofun

theorem shownWhen_innerItems :
    ∀ vs : List Value, ShownWhen (∀ i ∈ integersOf vs, Brief i) (innerItems vs)
  | [] => .of_ok _ nofun
  | v :: vs => (shownWhen_inner v).bind_append fun _ => (shownWhen_innerItems vs).bind_pure _

theorem shownWhen_innerEntries :
    ∀ es : List (Value × Value), ShownWhen (∀ i ∈ integersOfEntries es, Brief i) (innerEntries es)
  | [] => .of_ok _ nofun
  | (k, v) :: es =>
    (shownWhen_inner k).bind_append fun _ => (shownWhen_inner v).bind_append fun _ =>
      (shownWhen_innerEntries es).bind_pure _

end

/-- **A value is shown unless an integer in it has too many digits.** -/
theorem shownWhen_text (v : Value) : ShownWhen v.Showable v.text := by
  cases v with
  | str | date | moment => exact .of_ok _ (showable_of_integers_eq_nil rfl)
  | null | bool | num | bytes | list | pair | set | map | enclosing => exact shownWhen_inner _

end Yaml.Value

end ScriptAudit
