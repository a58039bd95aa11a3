import ScriptAudit.Proofs.Text.Letter

/-!
# Keywords

A keyword is read without regard to the case of its letters (`Text.afterKeyword?_eq_some`), and not
beyond a character that does not occur in it (`Text.afterKeyword?_append_cons`). Most keywords do not
begin inside one another (`Text.Unbordered`).
-/

namespace ScriptAudit.Text

/-- A keyword is read without regard to case. -/
theorem afterKeyword?_eq_some {keyword t rest : Text} :
    afterKeyword? keyword t = some rest ↔
      ∃ word, t = word ++ rest ∧ word.map foldLetter = keyword.map foldLetter := by
  induction keyword generalizing t with
  | nil =>
    constructor
    · intro h
      obtain rfl : t = rest := by cases t <;> simpa [afterKeyword?] using h
      exact ⟨[], rfl, rfl⟩
    · rintro ⟨word, rfl, hword⟩
      obtain rfl : word = [] := List.map_eq_nil_iff.1 hword
      cases rest <;> rfl
  | cons k ks ih =>
    cases t with
    | nil => simp [afterKeyword?]
    | cons c cs =>
      rw [afterKeyword?]
      split
      · next hk =>
        rw [ih]
        constructor
        · rintro ⟨word, rfl, hword⟩
          exact ⟨c :: word, rfl, by rw [List.map_cons, List.map_cons, hk, hword]⟩
        · rintro ⟨word, heq, hword⟩
          cases word with
          | nil => simp at hword
          | cons d word =>
            obtain ⟨rfl, rfl⟩ := List.cons.inj heq
            exact ⟨word, rfl, (List.cons.inj hword).2⟩
      · next hk =>
        simp only [reduceCtorEq, false_iff, not_exists, not_and]
        intro word heq hword
        cases word with
        | nil => simp at hword
        | cons d word =>
          obtain ⟨rfl, -⟩ := List.cons.inj heq
          exact hk (List.cons.inj hword).1.symm

theorem afterKeyword?_self_append (keyword rest : Text) :
    afterKeyword? keyword (keyword ++ rest) = some rest :=
  afterKeyword?_eq_some.2 ⟨keyword, rfl, rfl⟩

/-- A keyword is not read beyond a character that does not occur in it. -/
theorem afterKeyword?_append_cons {keyword : Text} {a : Char}
    (ha : ∀ k ∈ keyword, foldLetter k ≠ foldLetter a) (t s : Text) :
    afterKeyword? keyword (t ++ a :: s) = (afterKeyword? keyword t).map (· ++ a :: s) := by
  induction keyword generalizing t with
  | nil => cases t <;> rfl
  | cons k ks ih =>
    cases t with
    | nil => simp [afterKeyword?, ha k List.mem_cons_self]
    | cons c cs =>
      rw [List.cons_append, afterKeyword?, afterKeyword?]
      split
      · exact ih (fun k hk => ha k (List.mem_cons_of_mem _ hk)) cs
      · rfl

/-- A keyword is not read beyond the end of a text that ends in another character. -/
theorem afterKeyword?_append_of_getLast? {keyword t : Text} {a : Char}
    (ha : ∀ k ∈ keyword, foldLetter k ≠ foldLetter a) (ht : t.getLast? = some a) (s : Text) :
    afterKeyword? keyword (t ++ s) = (afterKeyword? keyword t).map (· ++ s) := by
  obtain ⟨u, rfl⟩ := List.getLast?_eq_some_iff.1 ht
  rw [afterKeyword?_append_cons ha u [], List.append_assoc, List.singleton_append,
    afterKeyword?_append_cons ha u s, Option.map_map]
  congr 1
  funext v
  simp

/-- Letters are neither a colon nor an at sign, whatever their case. -/
theorem foldLetter_ne_of_isAlpha {keyword : Text} (h : ∀ k ∈ keyword, (foldLetter k).isAlpha = true)
    {a : Char} (ha : (foldLetter a).isAlpha = false) : ∀ k ∈ keyword, foldLetter k ≠ foldLetter a := by
  intro k hk heq
  have := h k hk
  rw [heq, ha] at this
  exact Bool.false_ne_true this

/-- What is a keyword of letters, when case does not count, is made of word characters. -/
theorem isWord_of_map_foldLetter_eq {keyword : Text}
    (hletters : ∀ k ∈ keyword, (foldLetter k).isAlpha = true) {word : Text}
    (h : word.map foldLetter = keyword.map foldLetter) : ∀ c ∈ word, isWord c = true := by
  intro c hc
  obtain ⟨k, hk, hfold⟩ := List.mem_map.1 (h ▸ List.mem_map_of_mem hc)
  exact isWord_of_isAlpha_foldLetter (hfold ▸ hletters k hk)

/-- A keyword that does not begin a text does not begin it with blanks behind it either. -/
theorem afterKeyword?_append_of_head? {keyword t s : Text}
    (hs : ∀ c ∈ s.head?, isBlank c = true)
    (hletters : keyword.all (fun k => (foldLetter k).isAlpha) = true)
    (h : afterKeyword? keyword t = none) : afterKeyword? keyword (t ++ s) = none := by
  cases s with
  | nil => rwa [List.append_nil]
  | cons c s =>
    rw [afterKeyword?_append_cons (foldLetter_ne_of_isAlpha (List.all_eq_true.1 hletters)
      (isAlpha_foldLetter_of_isBlank (hs c rfl))), h]
    rfl

/-! ## Keywords behind one another -/

/-- Whether no keyword begins inside another one: what is left of it is not how it begins. -/
def Unbordered (keyword : Text) : Prop :=
  ∀ k < keyword.length, k ≠ 0 → (keyword.map foldLetter).drop k ≠
    (keyword.map foldLetter).take (keyword.length - k)

instance (keyword : Text) : Decidable (Unbordered keyword) :=
  inferInstanceAs (Decidable (∀ k < keyword.length, k ≠ 0 → _))

/-- A keyword ends in front of the next one. -/
theorem Unbordered.exists_append {keyword v y rest rest' : Text} (h : Unbordered keyword)
    (hv : v ≠ []) (hfirst : afterKeyword? keyword (v ++ y) = some rest)
    (hnext : afterKeyword? keyword y = some rest') : ∃ w, rest = w ++ y := by
  obtain ⟨word, heq, hword⟩ := afterKeyword?_eq_some.1 hfirst
  obtain ⟨next, hy, hfold⟩ := afterKeyword?_eq_some.1 hnext
  have hlength : word.length = keyword.length := by simpa using congrArg List.length hword
  have hlength' : next.length = keyword.length := by simpa using congrArg List.length hfold
  rcases List.append_eq_append_iff.1 heq with ⟨w, rfl, hrest⟩ | ⟨w, rfl, hrest⟩
  · by_cases hw : w = []
    · exact ⟨[], by rw [hrest, hw]; rfl⟩
    -- the keyword goes on to `w`, with which the next one begins
    · exfalso
      have hpos := List.length_pos_iff.2 hv
      have hpos' := List.length_pos_iff.2 hw
      rw [List.length_append] at hlength
      refine h v.length (by omega) (by omega) ?_
      have htake : next.take w.length = w := by
        have hshort : w.length ≤ next.length := by omega
        calc next.take w.length
            = (next ++ rest').take w.length := (List.take_append_of_le_length hshort).symm
          _ = w := by rw [← hy, hrest, List.take_left]
      calc (keyword.map foldLetter).drop v.length
          = w.map foldLetter := by
            rw [← hword, List.map_append, ← List.length_map foldLetter, List.drop_left]
        _ = (next.map foldLetter).take w.length := by rw [← List.map_take, htake]
        _ = (keyword.map foldLetter).take (keyword.length - v.length) := by
            rw [hfold]
            congr 1
            omega
  · exact ⟨w, hrest⟩

end ScriptAudit.Text
