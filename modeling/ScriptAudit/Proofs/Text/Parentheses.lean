import ScriptAudit.Text.Basic

/-!
# Pairs of parentheses

Two parentheses are a pair if the one opens, the other closes and no parenthesis stands between them
(`Text.Pair`). Two pairs are therefore the same or apart: they neither overlap nor lie in each other
(`Text.Pair.disjoint`). A position that belongs to no pair is outside (`Text.Outside`).

* `Text.pair_append_iff_of_notMem` — text without parentheses makes no pair.
* `Text.pair_append_call_iff` — a call makes one more pair.
-/

namespace ScriptAudit

namespace Text

/-! ## Characters by their position -/

theorem getElem?_append_of_eq_some {u : Text} {k : Nat} {c : Char} (h : u[k]? = some c) (v : Text) :
    (u ++ v)[k]? = some c := by
  rw [List.getElem?_append_left (List.getElem?_eq_some_iff.1 h).1, h]

/-- A character of two texts stands in the first or in the second. -/
theorem getElem?_append_cases {u v : Text} {k : Nat} {c : Char} (h : (u ++ v)[k]? = some c) :
    u[k]? = some c ∨ ∃ m, k = u.length + m ∧ v[m]? = some c := by
  rcases Nat.lt_or_ge k u.length with hlt | hge
  · rw [List.getElem?_append_left hlt] at h
    exact Or.inl h
  · rw [List.getElem?_append_right hge] at h
    exact Or.inr ⟨k - u.length, by omega, h⟩

theorem getElem?_append_length_add (u v : Text) (m : Nat) : (u ++ v)[u.length + m]? = v[m]? := by
  rw [List.getElem?_append_right (Nat.le_add_right _ _), Nat.add_sub_cancel_left]

theorem getElem?_append_cons_length (u : Text) (c : Char) (v : Text) :
    (u ++ c :: v)[u.length]? = some c :=
  getElem?_append_length_add u (c :: v) 0

/-- The text around a position. -/
theorem exists_append_cons_of_getElem? {t : Text} {k : Nat} {c : Char} (h : t[k]? = some c) :
    ∃ u v, t = u ++ c :: v ∧ u.length = k := by
  obtain ⟨hlt, rfl⟩ := List.getElem?_eq_some_iff.1 h
  refine ⟨t.take k, t.drop (k + 1), ?_, List.length_take_of_le (Nat.le_of_lt hlt)⟩
  rw [← List.drop_eq_getElem_cons hlt, List.take_append_drop]

/-! ## Pairs -/

/-- A pair of parentheses, by its two positions. -/
structure Pair (t : Text) (i j : Nat) : Prop where
  lt : i < j
  opens : t[i]? = some '('
  closes : t[j]? = some ')'
  between : ∀ k, i < k → k < j → t[k]? ≠ some '(' ∧ t[k]? ≠ some ')'

/-- A position that belongs to no pair: it lies in front of it or behind it. -/
def Outside (t : Text) (k : Nat) : Prop := ∀ i j, Pair t i j → k < i ∨ j < k

section

variable {t u v : Text} {i i' j j' k : Nat}

theorem Pair.lt_length (h : Pair t i j) : j < t.length :=
  (List.getElem?_eq_some_iff.1 h.closes).1

theorem Pair.eq_of_opens (h : Pair t i j) (h' : Pair t i j') : j = j' := by
  rcases Nat.lt_trichotomy j j' with hlt | heq | hgt
  · exact absurd h.closes (h'.between j h.lt hlt).2
  · exact heq
  · exact absurd h'.closes (h.between j' h'.lt hgt).2

theorem Pair.lt_of_lt (h : Pair t i j) (h' : Pair t i' j') (hlt : i < i') : j < i' := by
  apply Nat.lt_of_not_le
  intro hle
  rcases Nat.lt_or_eq_of_le hle with hinside | rfl
  · exact (h.between i' hlt hinside).1 h'.opens
  · exact absurd (h.closes.symm.trans h'.opens) (by decide)

/-- Pairs neither overlap nor lie in each other. -/
theorem Pair.disjoint (h : Pair t i j) (h' : Pair t i' j') :
    i = i' ∧ j = j' ∨ j < i' ∨ j' < i := by
  rcases Nat.lt_trichotomy i i' with hlt | rfl | hgt
  · exact Or.inr (Or.inl (h.lt_of_lt h' hlt))
  · exact Or.inl ⟨rfl, h.eq_of_opens h'⟩
  · exact Or.inr (Or.inr (h'.lt_of_lt h hgt))

/-- Behind a position outside, only an opening parenthesis leads into a pair. -/
theorem Outside.succ (h : Outside t k) (hopen : t[k + 1]? ≠ some '(') : Outside t (k + 1) := by
  intro i j hpair
  have hi : i ≠ k + 1 := by
    rintro rfl
    exact hopen hpair.opens
  have := h i j hpair
  omega

/-- Behind a closing parenthesis, only an opening one leads into a pair. -/
theorem Pair.outside_succ (h : Pair t i j) (hopen : t[j + 1]? ≠ some '(') : Outside t (j + 1) := by
  intro i' j' h'
  have hi : i' ≠ j + 1 := by
    rintro rfl
    exact hopen h'.opens
  have hlt := h.lt
  rcases h.disjoint h' with ⟨rfl, rfl⟩ | hbehind | hfront <;> omega

/-- The first position is outside, unless a parenthesis opens there. -/
theorem outside_zero (hopen : t[0]? ≠ some '(') : Outside t 0 := by
  intro i j hpair
  have hi : i ≠ 0 := by
    rintro rfl
    exact hopen hpair.opens
  omega

/-- A character other than a parenthesis that stands last is outside. -/
theorem outside_last {c : Char} (hc : t[k]? = some c) (hclose : c ≠ ')') (hlast : k + 1 = t.length) :
    Outside t k := by
  intro i j hpair
  have hj : j ≠ k := by
    rintro rfl
    exact hclose (Option.some.inj (hc.symm.trans hpair.closes))
  have := hpair.lt_length
  omega

/-! ## Longer texts -/

/-- Whether two positions are a pair depends on the text up to the second one. -/
theorem pair_append_iff_of_lt (hj : j < u.length) : Pair (u ++ v) i j ↔ Pair u i j := by
  have hget (k : Nat) (hk : k ≤ j) : (u ++ v)[k]? = u[k]? :=
    List.getElem?_append_left (Nat.lt_of_le_of_lt hk hj)
  constructor
  · intro h
    refine ⟨h.lt, ?_, ?_, fun k hi hk => ?_⟩
    · rw [← hget i (Nat.le_of_lt h.lt), h.opens]
    · rw [← hget j (Nat.le_refl j), h.closes]
    · rw [← hget k (Nat.le_of_lt hk)]
      exact h.between k hi hk
  · intro h
    refine ⟨h.lt, ?_, ?_, fun k hi hk => ?_⟩
    · rw [hget i (Nat.le_of_lt h.lt), h.opens]
    · rw [hget j (Nat.le_refl j), h.closes]
    · rw [hget k (Nat.le_of_lt hk)]
      exact h.between k hi hk

theorem Pair.append (h : Pair u i j) (v : Text) : Pair (u ++ v) i j :=
  (pair_append_iff_of_lt h.lt_length).2 h

theorem pair_append_iff_of_notMem (hv : ')' ∉ v) : Pair (u ++ v) i j ↔ Pair u i j := by
  constructor
  · intro h
    rcases getElem?_append_cases h.closes with hj | ⟨m, -, hm⟩
    · exact (pair_append_iff_of_lt (List.getElem?_eq_some_iff.1 hj).1).1 h
    · exact absurd (List.mem_of_getElem? hm) hv
  · intro h
    exact h.append v

theorem outside_append_iff_of_notMem (hv : ')' ∉ v) : Outside (u ++ v) k ↔ Outside u k := by
  simp only [Outside, pair_append_iff_of_notMem hv]

end

/-! ## Calls -/

/-- Arguments in parentheses. -/
def call (a : Text) : Text := '(' :: (a ++ [')'])

section

variable {a u : Text} {i j k : Nat} {c : Char}

theorem length_call (a : Text) : (call a).length = a.length + 2 := by
  simp [call]

/-- What stands at a position of a call. -/
theorem getElem?_call_cases (h : (call a)[k]? = some c) :
    k = 0 ∧ c = '(' ∨ (k ≠ 0 ∧ k < a.length + 1 ∧ c ∈ a) ∨ k = a.length + 1 ∧ c = ')' := by
  cases k with
  | zero => exact Or.inl ⟨rfl, (Option.some.inj h).symm⟩
  | succ k =>
    rw [call, List.getElem?_cons_succ] at h
    rcases getElem?_append_cases h with ha | ⟨m, rfl, hm⟩
    · have hk := (List.getElem?_eq_some_iff.1 ha).1
      exact Or.inr (Or.inl ⟨Nat.succ_ne_zero k, by omega, List.mem_of_getElem? ha⟩)
    · rw [List.getElem?_singleton] at hm
      split at hm
      · next hzero => exact Or.inr (Or.inr ⟨by omega, (Option.some.inj hm).symm⟩)
      · cases hm

theorem getElem?_call_succ {m : Nat} (h : a[m]? = some c) : (call a)[m + 1]? = some c := by
  rw [call, List.getElem?_cons_succ]
  exact getElem?_append_of_eq_some h [')']

/-- Between the ends of a call stand its arguments. -/
theorem mem_of_getElem?_append_call (h : (u ++ call a)[k]? = some c) (hi : u.length < k)
    (hj : k < u.length + (a.length + 1)) : c ∈ a := by
  obtain ⟨m, rfl⟩ := Nat.exists_eq_add_of_lt hi
  rw [Nat.add_assoc, getElem?_append_length_add] at h
  rcases getElem?_call_cases h with ⟨hm, -⟩ | ⟨-, -, hmem⟩ | ⟨hm, -⟩
  · omega
  · exact hmem
  · omega

/-- A call opens at its start only. -/
theorem opens_append_call (ha : ∀ c ∈ a, c ≠ '(' ∧ c ≠ ')') (h : (u ++ call a)[k]? = some '(') :
    u[k]? = some '(' ∨ k = u.length := by
  rcases getElem?_append_cases h with hu | ⟨m, rfl, hm⟩
  · exact Or.inl hu
  · rcases getElem?_call_cases hm with ⟨rfl, -⟩ | ⟨-, -, hmem⟩ | ⟨-, heq⟩
    · exact Or.inr rfl
    · exact absurd rfl (ha _ hmem).1
    · exact absurd heq (by decide)

/-- A call closes at its end only. -/
theorem closes_append_call (ha : ∀ c ∈ a, c ≠ '(' ∧ c ≠ ')') (h : (u ++ call a)[k]? = some ')') :
    u[k]? = some ')' ∨ k = u.length + (a.length + 1) := by
  rcases getElem?_append_cases h with hu | ⟨m, rfl, hm⟩
  · exact Or.inl hu
  · rcases getElem?_call_cases hm with ⟨-, heq⟩ | ⟨-, -, hmem⟩ | ⟨rfl, -⟩
    · exact absurd heq (by decide)
    · exact absurd rfl (ha _ hmem).2
    · exact Or.inr rfl

/-- The parentheses of a call are a pair. -/
theorem pair_call (ha : ∀ c ∈ a, c ≠ '(' ∧ c ≠ ')') (u : Text) :
    Pair (u ++ call a) u.length (u.length + (a.length + 1)) where
  lt := by omega
  opens := getElem?_append_cons_length u '(' _
  closes := by
    rw [getElem?_append_length_add, call, List.getElem?_cons_succ, List.getElem?_concat_length]
  between := by
    intro k hi hj
    constructor
    · intro h
      exact (ha _ (mem_of_getElem?_append_call h hi hj)).1 rfl
    · intro h
      exact (ha _ (mem_of_getElem?_append_call h hi hj)).2 rfl

theorem pair_append_call_iff (ha : ∀ c ∈ a, c ≠ '(' ∧ c ≠ ')') :
    Pair (u ++ call a) i j ↔
      Pair u i j ∨ i = u.length ∧ j = u.length + (a.length + 1) := by
  constructor
  · intro h
    have hlength := h.lt_length
    rw [List.length_append, length_call] at hlength
    rcases Nat.lt_or_ge j u.length with hlt | hge
    · exact Or.inl ((pair_append_iff_of_lt hlt).1 h)
    · -- no other pair fits behind the new one
      have hlt := h.lt
      rcases h.disjoint (pair_call ha u) with heq | hfront | hbehind
      · exact Or.inr heq
      · omega
      · omega
  · rintro (h | ⟨rfl, rfl⟩)
    · exact h.append (call a)
    · exact pair_call ha u

theorem outside_append_call_iff (ha : ∀ c ∈ a, c ≠ '(' ∧ c ≠ ')') :
    Outside (u ++ call a) k ↔
      Outside u k ∧ (k < u.length ∨ u.length + (a.length + 1) < k) := by
  constructor
  · intro h
    exact ⟨fun i j hpair => h i j (hpair.append _), h _ _ (pair_call ha u)⟩
  · rintro ⟨hout, hnew⟩ i j hpair
    rcases (pair_append_call_iff ha).1 hpair with hold | ⟨rfl, rfl⟩
    · exact hout i j hold
    · exact hnew

/-- A pair begins a call. -/
theorem Pair.exists_call {t : Text} (h : Pair (u ++ t) u.length j) :
    ∃ a s, t = call a ++ s ∧ j = u.length + (a.length + 1) := by
  obtain ⟨m, rfl⟩ := Nat.exists_eq_add_of_lt h.lt
  have hopens := h.opens
  have hcloses := h.closes
  rw [← Nat.add_zero u.length, getElem?_append_length_add] at hopens
  rw [Nat.add_assoc, getElem?_append_length_add] at hcloses
  cases t with
  | nil => cases hopens
  | cons d t =>
    obtain rfl : d = '(' := Option.some.inj hopens
    rw [List.getElem?_cons_succ] at hcloses
    obtain ⟨a, s, rfl, rfl⟩ := exists_append_cons_of_getElem? hcloses
    exact ⟨a, s, by simp [call], rfl⟩

end

end Text

end ScriptAudit
