import Mathlib.Data.List.Infix
import ScriptAudit.Text.Scan

/-!
# Replacing finds

`Recogniser.substitute` counts down the characters that a find has used up. `Recogniser.Replaces`
says the same with the find as one step: a text is cut at each find, the find gives way to its
replacement and everything else is kept. Statements about replaced texts are inductions along it.
-/

namespace ScriptAudit.Recogniser

variable {r : Recogniser Text}

/-- `out` is the text `t`, which follows the character `before`, with every find replaced. -/
inductive Replaces (r : Recogniser Text) : (before : Option Char) → (t out : Text) → Prop
  /-- The text is at its end. -/
  | done {before : Option Char} : Replaces r before [] []
  /-- Nothing is found here, and the next character is kept. -/
  | keep {before : Option Char} {c : Char} {cs out : Text} (none : r before (c :: cs) = none)
      (rest : Replaces r (some c) cs out) : Replaces r before (c :: cs) (c :: out)
  /-- What is found here gives way to its replacement. -/
  | put {before : Option Char} {c : Char} {find t new out : Text}
      (found : r before (c :: find ++ t) = some (new, (c :: find).length))
      (rest : Replaces r (c :: find).getLast? t out) :
      Replaces r before (c :: find ++ t) (new ++ out)

/-- A recogniser that uses up at least one character, and none that is not there. -/
def Progresses (r : Recogniser Text) : Prop :=
  ∀ before t new n, r before t = some (new, n) → 0 < n ∧ n ≤ t.length

/-- Characters that belong to a find are passed over. -/
theorem substitute_append (r : Recogniser Text) (c : Char) (find t : Text) :
    substitute r find.length (some c) (find ++ t) =
      substitute r 0 (c :: find).getLast? t := by
  induction find generalizing c with
  | nil => rfl
  | cons d ds ih =>
    rw [List.length_cons, List.cons_append, substitute, ih, List.getLast?_cons_cons]

theorem replaces_substitute (hr : r.Progresses) (before : Option Char) (t : Text) :
    Replaces r before t (substitute r 0 before t) := by
  induction hlength : t.length using Nat.strong_induction_on generalizing before t with
  | _ length ih =>
    subst hlength
    cases t with
    | nil => exact .done
    | cons c cs =>
      rw [substitute]
      cases hfound : r before (c :: cs) with
      | none => exact .keep hfound (ih cs.length (by simp) _ _ rfl)
      | some find =>
        obtain ⟨new, n⟩ := find
        obtain ⟨hpos, hle⟩ := hr _ _ _ _ hfound
        obtain ⟨k, rfl⟩ : ∃ k, n = k + 1 := ⟨n - 1, by omega⟩
        have hk : k ≤ cs.length := by simpa using hle
        obtain ⟨u, v, rfl, rfl⟩ : ∃ u v, cs = u ++ v ∧ k = u.length :=
          ⟨cs.take k, cs.drop k, (List.take_append_drop k cs).symm, by simp [hk]⟩
        show Replaces r before (c :: u ++ v) (new ++ substitute r u.length (some c) (u ++ v))
        rw [substitute_append]
        have hlt : v.length < (c :: (u ++ v)).length := by
          rw [List.length_cons, List.length_append]
          omega
        exact .put hfound (ih v.length hlt _ v rfl)

/-- There is one way to replace the finds of a text. -/
theorem Replaces.eq_substitute {before : Option Char} {t out : Text}
    (h : Replaces r before t out) : out = substitute r 0 before t := by
  induction h with
  | done => rfl
  | keep hnone _ ih => rw [substitute, hnone, ih]
  | @put before c find t new out hfound _ ih =>
    rw [List.cons_append] at hfound
    rw [List.cons_append, substitute, hfound, ih]
    show _ = new ++ substitute r find.length (some c) (find ++ t)
    rw [substitute_append]

theorem getLast?_cons_or (c : Char) (x : Text) (before : Option Char) :
    (c :: x).getLast?.or before = x.getLast?.or (some c) := by
  cases x with
  | nil => rfl
  | cons d x => rw [List.getLast?_cons_cons, List.getLast?_eq_some_getLast (by simp)]; rfl

/-- A part of a text in which no find begins is kept. -/
theorem Replaces.keep_append {before : Option Char} {u s out : Text}
    (hnone : ∀ x y, u = x ++ y → y ≠ [] → r (x.getLast?.or before) (y ++ s) = none)
    (h : Replaces r (u.getLast?.or before) s out) : Replaces r before (u ++ s) (u ++ out) := by
  induction u generalizing before with
  | nil => exact h
  | cons c u ih =>
    rw [getLast?_cons_or] at h
    refine .keep (hnone [] (c :: u) rfl (List.cons_ne_nil c u)) (ih ?_ h)
    intro x y hxy hy
    rw [← getLast?_cons_or c x before]
    exact hnone (c :: x) y (by rw [hxy]; rfl) hy

/-- A text in which nothing is found stays as it is. -/
theorem replaced_eq_self {t : Text} (h : ∀ before u, u <:+ t → r before u = none) :
    r.replaced t = t := by
  suffices hall : ∀ before, substitute r 0 before t = t from hall none
  induction t with
  | nil => exact fun _ => rfl
  | cons c cs ih =>
    intro before
    rw [substitute, h before _ List.suffix_rfl]
    exact congrArg (c :: ·) (ih (fun b u hu => h b u (hu.trans (List.suffix_cons c cs))) (some c))

/-! ## What stays in place -/

/-- Where something is found, its first character is one that `p` allows after the character before
it, and the replacement begins with the same character. -/
def Begins (r : Recogniser Text) (p : Option Char → Char → Prop) : Prop :=
  ∀ before t new n, r before t = some (new, n) →
    ∃ c, t.head? = some c ∧ new.head? = some c ∧ p before c

variable {p : Option Char → Char → Prop}

/-- Replacing keeps the first character of a text. -/
theorem Replaces.head?_eq (hr : r.Begins p) {before : Option Char} {t out : Text}
    (h : Replaces r before t out) : out.head? = t.head? := by
  cases h with
  | done => rfl
  | keep => rfl
  | put found rest =>
    obtain ⟨c, ht, hnew, -⟩ := hr _ _ _ _ found
    rw [ht, List.head?_append, hnew]
    rfl

/-- A part of the output in which no find begins is a part of the text. -/
theorem Replaces.copied (hr : r.Begins p) {before : Option Char} {t u v : Text}
    (h : Replaces r before t (u ++ v))
    (hu : ∀ x c y, u = x ++ c :: y → ¬ p (x.getLast?.or before) c) :
    ∃ s, t = u ++ s ∧ Replaces r (u.getLast?.or before) s v := by
  induction u generalizing before t with
  | nil => exact ⟨t, rfl, h⟩
  | cons c u ih =>
    generalize hout : c :: u ++ v = out at h
    cases h with
    | done => simp at hout
    | @keep _ d cs out hnone rest =>
      obtain ⟨rfl, rfl⟩ := List.cons.inj hout
      obtain ⟨s, rfl, hs⟩ := ih rest fun x d y hsplit => by
        rw [← getLast?_cons_or c x before]
        exact hu (c :: x) d y (by rw [hsplit]; rfl)
      exact ⟨s, rfl, by rwa [getLast?_cons_or]⟩
    | put found rest =>
      obtain ⟨d, -, hnew, hp⟩ := hr _ _ _ _ found
      obtain ⟨new, rfl⟩ := List.head?_eq_some_iff.1 hnew
      obtain ⟨rfl, -⟩ := List.cons.inj hout
      exact absurd hp (hu [] c u rfl)

/-- The same for one character. -/
theorem Replaces.copied_cons (hr : r.Begins p) {before : Option Char} {c : Char} {t v : Text}
    (h : Replaces r before t (c :: v)) (hc : ¬ p before c) :
    ∃ s, t = c :: s ∧ Replaces r (some c) s v := by
  refine h.copied (u := [c]) hr fun x d y hsplit => ?_
  cases x with
  | nil => obtain ⟨rfl, -⟩ := List.cons.inj hsplit; exact hc
  | cons _ x => simp at hsplit

/-- A part of the text in which no find begins is a part of the output. -/
theorem Replaces.kept (hr : r.Begins p) {before : Option Char} {u s out : Text}
    (h : Replaces r before (u ++ s) out)
    (hu : ∀ x c y, u = x ++ c :: y → ¬ p (x.getLast?.or before) c) :
    ∃ v, out = u ++ v ∧ Replaces r (u.getLast?.or before) s v := by
  induction u generalizing before out with
  | nil => exact ⟨out, rfl, h⟩
  | cons c u ih =>
    generalize ht : c :: u ++ s = t at h
    cases h with
    | done => simp at ht
    | @keep _ d cs out hnone rest =>
      obtain ⟨rfl, rfl⟩ := List.cons.inj ht
      obtain ⟨v, rfl, hv⟩ := ih rest fun x d y hsplit => by
        rw [← getLast?_cons_or c x before]
        exact hu (c :: x) d y (by rw [hsplit]; rfl)
      exact ⟨v, rfl, by rwa [getLast?_cons_or]⟩
    | put found rest =>
      obtain ⟨d, hd, -, hp⟩ := hr _ _ _ _ found
      obtain ⟨rfl, -⟩ := List.cons.inj ht
      obtain rfl : c = d := by simpa using hd
      exact absurd hp (hu [] c u rfl)

end ScriptAudit.Recogniser
