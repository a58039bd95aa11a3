import Mathlib.Data.List.Basic

/-!
# Operations and their answers

An operation `Answers` unless a fault stands in its way. Steps in a row answer when each one does,
and of a list of steps the first fault is the fault of all (`mapM_eq_error_iff`).
-/

namespace ScriptAudit

variable {ε α β : Type}

/-- Whether an operation gives an answer. -/
def Answers (e : Except ε α) : Prop := ∃ a, e = .ok a

@[simp] theorem answers_ok (a : α) : Answers (.ok a : Except ε α) := ⟨a, rfl⟩

@[simp] theorem answers_pure (a : α) : Answers (pure a : Except ε α) := ⟨a, rfl⟩

@[simp] theorem not_answers_error (e : ε) : ¬ Answers (.error e : Except ε α) := nofun

theorem not_answers_iff {e : Except ε α} : ¬ Answers e ↔ ∃ f, e = .error f := by
  cases e <;> simp

theorem answers_iff_forall {e : Except ε α} : Answers e ↔ ∀ f, e ≠ .error f := by
  cases e <;> simp

theorem answers_iff_isSome {e : Except ε α} : Answers e ↔ e.toOption.isSome = true := by
  cases e <;> simp [Except.toOption]

theorem eq_ok_iff_toOption {e : Except ε α} {a : α} : e = .ok a ↔ e.toOption = some a := by
  cases e <;> simp [Except.toOption]

instance (e : Except ε α) : Decidable (Answers e) := decidable_of_iff _ answers_iff_isSome.symm

/-! ## Steps in a row -/

theorem bind_eq_ok_iff {e : Except ε α} {f : α → Except ε β} {b : β} :
    e >>= f = .ok b ↔ ∃ a, e = .ok a ∧ f a = .ok b := by
  cases e with
  | error => exact ⟨nofun, nofun⟩
  | ok a => exact ⟨fun h => ⟨a, rfl, h⟩, fun ⟨_, ha, h⟩ => Except.ok.inj ha ▸ h⟩

theorem bind_eq_error_iff {e : Except ε α} {f : α → Except ε β} {x : ε} :
    e >>= f = .error x ↔ e = .error x ∨ ∃ a, e = .ok a ∧ f a = .error x := by
  cases e with
  | error y =>
    refine ⟨fun h => Or.inl (congrArg Except.error (Except.error.inj h)), ?_⟩
    rintro (h | ⟨_, h, _⟩)
    · exact congrArg Except.error (Except.error.inj h)
    · cases h
  | ok a =>
    refine ⟨fun h => Or.inr ⟨a, rfl, h⟩, ?_⟩
    rintro (h | ⟨_, ha, h⟩)
    · cases h
    · exact Except.ok.inj ha ▸ h

theorem answers_bind_iff {e : Except ε α} {f : α → Except ε β} :
    Answers (e >>= f) ↔ ∃ a, e = .ok a ∧ Answers (f a) := by
  constructor
  · rintro ⟨b, h⟩
    obtain ⟨a, ha, hb⟩ := bind_eq_ok_iff.1 h
    exact ⟨a, ha, b, hb⟩
  · rintro ⟨a, ha, b, hb⟩
    exact ⟨b, bind_eq_ok_iff.2 ⟨a, ha, hb⟩⟩

/-- A step that answers whatever the one before it answered. -/
theorem answers_bind_of_forall {e : Except ε α} {f : α → Except ε β} (h : ∀ a, Answers (f a)) :
    Answers (e >>= f) ↔ Answers e := by
  rw [answers_bind_iff]
  exact ⟨fun ⟨a, ha, _⟩ => ⟨a, ha⟩, fun ⟨a, ha⟩ => ⟨a, ha, h a⟩⟩

/-- A step that answers under the same condition whatever the one before it answered. -/
theorem answers_bind_iff_and {e : Except ε α} {f : α → Except ε β} {p : Prop}
    (h : ∀ a, Answers (f a) ↔ p) : Answers (e >>= f) ↔ Answers e ∧ p := by
  rw [answers_bind_iff]
  simp only [h, exists_and_right]
  rfl

theorem map_eq_ok_iff {e : Except ε α} {f : α → β} {b : β} :
    e.map f = .ok b ↔ ∃ a, e = .ok a ∧ f a = b := by
  cases e <;> simp [Except.map]

theorem map_eq_error_iff {e : Except ε α} {f : α → β} {x : ε} :
    e.map f = .error x ↔ e = .error x := by
  cases e <;> simp [Except.map]

@[simp] theorem answers_map_iff {e : Except ε α} {f : α → β} : Answers (e.map f) ↔ Answers e := by
  cases e <;> simp [Except.map]

/-! ## Lists of steps -/

theorem answers_mapM_iff {f : α → Except ε β} {xs : List α} :
    Answers (xs.mapM f) ↔ ∀ x ∈ xs, Answers (f x) := by
  induction xs with
  | nil => simp
  | cons x xs ih =>
    rw [List.mapM_cons, answers_bind_iff, List.forall_mem_cons, ← ih]
    constructor
    · rintro ⟨b, hb, hrest⟩
      exact ⟨⟨b, hb⟩, (answers_bind_of_forall fun _ => answers_pure _).1 hrest⟩
    · rintro ⟨⟨b, hb⟩, hrest⟩
      exact ⟨b, hb, (answers_bind_of_forall fun _ => answers_pure _).2 hrest⟩

theorem length_of_mapM {f : α → Except ε β} {xs : List α} {ys : List β}
    (h : xs.mapM f = .ok ys) : ys.length = xs.length := by
  induction xs generalizing ys with
  | nil =>
    cases h
    rfl
  | cons x xs ih =>
    rw [List.mapM_cons] at h
    obtain ⟨y, -, h⟩ := bind_eq_ok_iff.1 h
    obtain ⟨ys, hys, h⟩ := bind_eq_ok_iff.1 h
    obtain rfl := Except.ok.inj h
    rw [List.length_cons, List.length_cons, ih hys]

/-- A list of steps is at fault with its first fault. -/
theorem mapM_eq_error_iff {f : α → Except ε β} {xs : List α} {e : ε} :
    xs.mapM f = .error e ↔ ∃ front x back, xs = front ++ x :: back ∧
      (∀ y ∈ front, Answers (f y)) ∧ f x = .error e := by
  induction xs with
  | nil => exact ⟨nofun, fun ⟨front, x, back, h, _⟩ => by simp at h⟩
  | cons a xs ih =>
    rw [List.mapM_cons, bind_eq_error_iff]
    constructor
    · rintro (ha | ⟨b, hb, hrest⟩)
      · exact ⟨[], a, xs, rfl, by simp, ha⟩
      · rcases bind_eq_error_iff.1 hrest with hrest | ⟨_, _, h⟩
        · obtain ⟨front, x, back, rfl, hfront, hx⟩ := ih.1 hrest
          exact ⟨a :: front, x, back, rfl, List.forall_mem_cons.2 ⟨⟨b, hb⟩, hfront⟩, hx⟩
        · cases h
    · rintro ⟨front, x, back, hsplit, hfront, hx⟩
      cases front with
      | nil =>
        obtain ⟨rfl, rfl⟩ := List.cons.inj hsplit
        exact Or.inl hx
      | cons a' front =>
        obtain ⟨rfl, rfl⟩ := List.cons.inj hsplit
        obtain ⟨⟨b, hb⟩, hfront⟩ := List.forall_mem_cons.1 hfront
        refine Or.inr ⟨b, hb, bind_eq_error_iff.2 (Or.inl (ih.2 ⟨front, x, back, rfl, hfront, hx⟩))⟩

theorem answers_filterM_iff {p : α → Except ε Bool} {xs : List α} :
    Answers (xs.filterM p) ↔ ∀ x ∈ xs, Answers (p x) := by
  suffices h : ∀ done, Answers (List.filterAuxM p xs done) ↔ ∀ x ∈ xs, Answers (p x) by
    rw [List.filterM, answers_bind_of_forall fun _ => answers_pure _]
    exact h []
  induction xs with
  | nil => exact fun done => by simp [List.filterAuxM]
  | cons x xs ih =>
    intro done
    rw [List.filterAuxM, answers_bind_iff, List.forall_mem_cons]
    simp only [ih]
    exact ⟨fun ⟨b, hb, hrest⟩ => ⟨⟨b, hb⟩, hrest⟩, fun ⟨⟨b, hb⟩, hrest⟩ => ⟨b, hb, hrest⟩⟩

end ScriptAudit
