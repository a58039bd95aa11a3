import ScriptAudit.Proofs.Text.Clause

/-!
# A password in a text

`enclosed p` is a password between the colon in front of it and the at sign behind it. The password
is made of letters and digits and is no word of letters only (`IsPassword`). So no keyword is found
in it, no blank, no line break and no mark of a pattern, and what is looked for in front of the colon
ends there at the latest: a recogniser that `Overlooks` passwords finds the same around any two of
them (`Recogniser.Overlooks.occurrences_eq`).
-/

namespace ScriptAudit

/-! ## Passwords -/

/-- Letters and digits, with a digit among them. -/
structure IsPassword (p : Text) : Prop where
  isAlphanum : ∀ c ∈ p, c.isAlphanum = true
  exists_isDigit : ∃ c ∈ p, c.isDigit = true

/-- A password between a colon and an at sign. -/
def enclosed (p : Text) : Text := ':' :: (p ++ ['@'])

instance (p : Text) : Decidable (IsPassword p) :=
  decidable_of_iff (p.all Char.isAlphanum = true ∧ p.any Char.isDigit = true)
    ⟨fun ⟨hall, hany⟩ => ⟨List.all_eq_true.1 hall, List.any_eq_true.1 hany⟩,
      fun h => ⟨List.all_eq_true.2 h.isAlphanum, List.any_eq_true.2 h.exists_isDigit⟩⟩

theorem enclosed_append (p t : Text) : enclosed p ++ t = ':' :: (p ++ '@' :: t) := by
  simp [enclosed]

namespace IsPassword

variable {p : Text}

theorem ne_nil (h : IsPassword p) : p ≠ [] := by
  rintro rfl
  obtain ⟨c, hc, -⟩ := h.exists_isDigit
  exact absurd hc List.not_mem_nil

theorem isWord_of_mem (h : IsPassword p) : ∀ c ∈ p, isWord c = true :=
  fun c hc => isWord_of_isAlphanum (h.isAlphanum c hc)

theorem isBlank_eq_false (h : IsPassword p) : ∀ c ∈ enclosed p, isBlank c = false := by
  intro c hc
  simp only [enclosed, List.mem_cons, List.mem_append, List.not_mem_nil, or_false] at hc
  rcases hc with rfl | hc | rfl
  · decide
  · exact isBlank_eq_false_of_isWord (h.isWord_of_mem c hc)
  · decide

/-- Nothing but letters, digits, a colon and an at sign stands in an enclosed password. -/
theorem notMem (h : IsPassword p) {a : Char} (ha : a.isAlphanum = false) (hcolon : a ≠ ':')
    (hat : a ≠ '@') : a ∉ enclosed p := by
  simp only [enclosed, List.mem_cons, List.mem_append, List.not_mem_nil, or_false, not_or]
  exact ⟨hcolon, fun hmem => ne_of_isAlphanum (h.isAlphanum a hmem) ha rfl, hat⟩

/-- Behind a keyword that a password begins with the password goes on. -/
theorem exists_of_afterKeyword? (h : IsPassword p) {keyword s rest : Text}
    (hkeyword : ∀ k ∈ keyword, (foldLetter k).isAlpha = true)
    (hread : Text.afterKeyword? keyword (p ++ '@' :: s) = some rest) :
    ∃ c tail, rest = c :: tail ∧ isWord c = true := by
  rw [Text.afterKeyword?_append_cons (Text.foldLetter_ne_of_isAlpha hkeyword (by decide)),
    Option.map_eq_some_iff] at hread
  obtain ⟨tail, htail, rfl⟩ := hread
  obtain ⟨word, rfl, hword⟩ := Text.afterKeyword?_eq_some.1 htail
  cases tail with
  | cons c tail => exact ⟨c, _, rfl, h.isWord_of_mem c (by simp)⟩
  | nil =>
    -- the keyword cannot be the whole password, since it has no digit
    obtain ⟨d, hd, hdigit⟩ := h.exists_isDigit
    have hmem : foldLetter d ∈ keyword.map foldLetter := by
      rw [← hword]
      exact List.mem_map_of_mem (by simpa using hd)
    obtain ⟨k, hk, heq⟩ := List.mem_map.1 hmem
    have := hkeyword k hk
    rw [heq, isAlpha_foldLetter_of_isDigit hdigit] at this
    exact absurd this Bool.false_ne_true

end IsPassword

namespace Text

theorem trim_enclosed (p t s : Text) :
    trim (t ++ (enclosed p ++ s)) = trimLeft t ++ (enclosed p ++ trimRight s) := by
  rw [enclosed_append, enclosed_append, trim, trimLeft_append_cons (by decide),
    ← List.cons_append, ← List.append_assoc, trimRight_append_cons (by decide)]
  simp

end Text

/-! ## Recognisers -/

namespace Recogniser

variable {α : Type}

/-- A recogniser that does not look beyond a colon and finds nothing in a password. -/
structure Overlooks (r : Recogniser α) : Prop where
  before_colon : ∀ before t s s', r before (t ++ ':' :: s) = r before (t ++ ':' :: s')
  le_length : ∀ before t s a n, r before (t ++ ':' :: s) = some (a, n) → n ≤ t.length
  eq_none : ∀ p, IsPassword p → ∀ x y s, p ++ ['@'] = x ++ y → y ≠ [] →
    r (x.getLast?.or (some ':')) (y ++ s) = none

namespace Overlooks

variable {r : Recogniser α} {p q : Text}

theorem collect_enclosed (h : r.Overlooks) (hp : IsPassword p) (hq : IsPassword q)
    {skip : Nat} {t : Text} (hskip : skip ≤ t.length) (before : Option Char) (s : Text) :
    collect r skip before (t ++ (enclosed p ++ s)) =
      collect r skip before (t ++ (enclosed q ++ s)) := by
  rw [enclosed_append, enclosed_append]
  induction t generalizing skip before with
  | nil =>
    obtain rfl : skip = 0 := by simpa using hskip
    have hinside {p : Text} (hp : IsPassword p) :
        collect r 0 (some ':') (p ++ '@' :: s) = collect r 0 (some '@') s := by
      have hnone : collect r 0 (some ':') ((p ++ ['@']) ++ s) =
          collect r 0 ((p ++ ['@']).getLast?.or (some ':')) s :=
        collect_append r fun x y => h.eq_none p hp x y s
      rw [List.getLast?_append] at hnone
      simpa using hnone
    have hsame := h.before_colon before [] (p ++ '@' :: s) (q ++ '@' :: s)
    rw [List.nil_append, List.nil_append] at hsame ⊢
    rw [collect, collect, hsame]
    split
    · next a n hfound =>
      obtain rfl : n = 0 := by simpa using h.le_length before [] _ a n hfound
      rw [hinside hp, hinside hq]
    · rw [hinside hp, hinside hq]
  | cons c t ih =>
    cases skip with
    | succ skip => exact ih (Nat.le_of_succ_le_succ hskip) (some c)
    | zero =>
      have hsame := h.before_colon before (c :: t) (p ++ '@' :: s) (q ++ '@' :: s)
      rw [List.cons_append, List.cons_append] at hsame ⊢
      rw [collect, collect, hsame]
      split
      · next a n hfound =>
        have hle := h.le_length before (c :: t) _ a n hfound
        rw [ih (by simpa using hle)]
      · rw [ih (Nat.zero_le _)]

/-- Around any two passwords the same is found. -/
theorem occurrences_eq (h : r.Overlooks) (hp : IsPassword p) (hq : IsPassword q) (t s : Text) :
    r.occurrences (t ++ (enclosed p ++ s)) = r.occurrences (t ++ (enclosed q ++ s)) :=
  h.collect_enclosed hp hq (Nat.zero_le _) none s

theorem first?_eq (h : r.Overlooks) (hp : IsPassword p) (hq : IsPassword q) (t s : Text) :
    r.first? (t ++ (enclosed p ++ s)) = r.first? (t ++ (enclosed q ++ s)) := by
  rw [first?, first?, search_eq_head?_collect, search_eq_head?_collect,
    h.collect_enclosed hp hq (Nat.zero_le _)]

theorem found_eq (h : r.Overlooks) (hp : IsPassword p) (hq : IsPassword q) (t s : Text) :
    r.found (t ++ (enclosed p ++ s)) = r.found (t ++ (enclosed q ++ s)) := by
  rw [found, found, h.first?_eq hp hq]

end Overlooks

end Recogniser

/-! ## Words -/

namespace Text

variable {keyword : Text}

/-- No keyword stands alone at the beginning of a password, and none begins inside of it. -/
theorem not_keyword_of_enclosed {p : Text} (hp : IsPassword p)
    (hkeyword : ∀ k ∈ keyword, (foldLetter k).isAlpha = true) {x y s : Text}
    (hsplit : p ++ ['@'] = x ++ y) (hy : y ≠ [])
    (hstart : wordStarts (x.getLast?.or (some ':')) = true) {rest : Text}
    (hread : afterKeyword? keyword (y ++ s) = some rest) :
    ∃ c tail, rest = c :: tail ∧ isWord c = true := by
  cases hlast : x.getLast? with
  | none =>
    obtain rfl := List.getLast?_eq_none_iff.1 hlast
    obtain rfl : p ++ ['@'] = y := hsplit
    rw [List.append_assoc] at hread
    exact hp.exists_of_afterKeyword? hkeyword hread
  | some c =>
    -- the character before is one of the password
    have hc : c ∈ p := by
      have hmem : c ∈ (p ++ ['@']).dropLast := by
        rw [hsplit, List.dropLast_append_of_ne_nil hy]
        exact List.mem_append_left _ (List.mem_of_getLast? hlast)
      simpa using hmem
    simp [hlast, wordStarts, hp.isWord_of_mem c hc] at hstart

theorem overlooks_wholeWord (hkeyword : ∀ k ∈ keyword, (foldLetter k).isAlpha = true) :
    (wholeWord keyword).Overlooks where
  before_colon before t s s' := by
    have hcolon := foldLetter_ne_of_isAlpha hkeyword (a := ':') (by decide)
    rw [wholeWord_eq, wholeWord_eq, afterKeyword?_append_cons hcolon,
      afterKeyword?_append_cons hcolon]
    cases afterKeyword? keyword t with
    | none => rfl
    | some rest => cases rest <;> rfl
  le_length before t s a n h := by
    have hcolon := foldLetter_ne_of_isAlpha hkeyword (a := ':') (by decide)
    rw [wholeWord_eq, afterKeyword?_append_cons hcolon] at h
    cases hread : afterKeyword? keyword t with
    | none => simp [hread] at h
    | some rest =>
      have hlength := length_of_afterKeyword? hread
      rw [hread] at h
      simp only [Option.map_some, Option.ite_none_right_eq_some, Option.ite_none_left_eq_some,
        Option.some.injEq, Prod.mk.injEq] at h
      omega
  eq_none p hp x y s hsplit hy := by
    rw [wholeWord_eq]
    split
    · next hstart =>
      split
      · rfl
      · next rest hread =>
        obtain ⟨c, tail, rfl, hc⟩ := not_keyword_of_enclosed hp hkeyword hsplit hy hstart hread
        rw [if_pos (by simpa using hc)]
    · rfl

theorem overlooks_wordAfter (hkeyword : ∀ k ∈ keyword, (foldLetter k).isAlpha = true) :
    (wordAfter keyword).Overlooks where
  before_colon before t s s' := by
    have hcolon := foldLetter_ne_of_isAlpha hkeyword (a := ':') (by decide)
    have hblank : isBlank ':' = false := by decide
    have hword : isWord ':' = false := by decide
    rw [wordAfter_eq, wordAfter_eq, afterKeyword?_append_cons hcolon,
      afterKeyword?_append_cons hcolon]
    cases afterKeyword? keyword t with
    | none => rfl
    | some rest =>
      simp only [Option.map_some, takeWhile_append_cons hblank,
        dropWhile_append_cons hblank, takeWhile_append_cons hword]
  le_length before t s a n h := by
    have hcolon := foldLetter_ne_of_isAlpha hkeyword (a := ':') (by decide)
    have hblank : isBlank ':' = false := by decide
    have hword : isWord ':' = false := by decide
    rw [wordAfter_eq, afterKeyword?_append_cons hcolon] at h
    cases hread : afterKeyword? keyword t with
    | none => simp [hread] at h
    | some rest =>
      have hlength := length_of_afterKeyword? hread
      simp only [hread, Option.map_some, takeWhile_append_cons hblank,
        dropWhile_append_cons hblank, takeWhile_append_cons hword, Option.ite_none_right_eq_some,
        Option.ite_none_left_eq_some, Option.some.injEq, Prod.mk.injEq] at h
      have hsplit := length_takeWhile_add isBlank rest
      have hle := (List.takeWhile_prefix isWord (l := rest.dropWhile isBlank)).length_le
      omega
  eq_none p hp x y s hsplit hy := by
    rw [wordAfter_eq]
    split
    · next hstart =>
      split
      · rfl
      · next rest hread =>
        obtain ⟨c, tail, rfl, hc⟩ := not_keyword_of_enclosed hp hkeyword hsplit hy hstart hread
        simp [isBlank_eq_false_of_isWord hc]
    · rfl

end Text

end ScriptAudit
