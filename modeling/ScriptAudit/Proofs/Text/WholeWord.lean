import ScriptAudit.Proofs.Text.Clause

/-!
# Whole words

A keyword that is looked for as a whole word is found exactly where no word character stands beside
it (`Text.found_wholeWord_iff`). Since a line feed is no word character, it is found in lines that
are written one below the other exactly if it is found in one of them (`Text.hasWord_joinWith_iff`).
-/

namespace ScriptAudit

/-- A search finds something exactly if there is something to be found at some place. -/
theorem Recogniser.isSome_search_iff {α : Type} {r : Recogniser α} {before : Option Char} {t : Text} :
    (r.search before t).isSome = true ↔
      ∃ x y, t = x ++ y ∧ y ≠ [] ∧ (r (x.getLast?.or before) y).isSome = true := by
  induction t generalizing before with
  | nil =>
    refine iff_of_false (by simp [search]) ?_
    rintro ⟨x, y, hxy, hy, -⟩
    exact hy (List.append_eq_nil_iff.1 hxy.symm).2
  | cons c cs ih =>
    rw [search]
    cases hc : r before (c :: cs) with
    | some found => exact iff_of_true rfl ⟨[], c :: cs, rfl, List.cons_ne_nil c cs, by simp [hc]⟩
    | none =>
      rw [ih]
      constructor
      · rintro ⟨x, y, rfl, hy, hfound⟩
        exact ⟨c :: x, y, rfl, hy, by rwa [getLast?_cons_or]⟩
      · rintro ⟨x, y, hxy, hy, hfound⟩
        cases x with
        | nil =>
          obtain rfl : c :: cs = y := hxy
          simp [hc] at hfound
        | cons d x =>
          obtain ⟨rfl, rfl⟩ := List.cons.inj hxy
          exact ⟨x, y, rfl, hy, by rwa [getLast?_cons_or] at hfound⟩

namespace Text

variable {keyword : Text}

/-- Whether a keyword stands in a text as a whole word, in letters of any case. -/
def HasWord (keyword t : Text) : Prop :=
  ∃ u word v, t = u ++ (word ++ v) ∧ word.map foldLetter = keyword.map foldLetter ∧
    (∀ c ∈ u.getLast?, isWord c = false) ∧ ∀ c ∈ v.head?, isWord c = false

theorem isSome_wholeWord_iff {before : Option Char} {t : Text} :
    (wholeWord keyword before t).isSome = true ↔
      (∀ c ∈ before, isWord c = false) ∧ ∃ word v, t = word ++ v ∧
        word.map foldLetter = keyword.map foldLetter ∧ ∀ c ∈ v.head?, isWord c = false := by
  have hstarts : wordStarts before = true ↔ ∀ c ∈ before, isWord c = false := by
    cases before <;> simp [wordStarts]
  have hends (v : Text) : v.head?.any isWord = false ↔ ∀ c ∈ v.head?, isWord c = false :=
    Option.any_eq_false _ _
  rw [wholeWord_eq, ← hstarts]
  cases wordStarts before with
  | false => simp
  | true =>
    rw [if_pos rfl]
    constructor
    · intro h
      split at h
      · cases h
      · next rest hrest =>
        obtain ⟨word, rfl, hword⟩ := afterKeyword?_eq_some.1 hrest
        split at h
        · cases h
        · next hrest => exact ⟨rfl, word, rest, rfl, hword, (hends rest).1 (by simpa using hrest)⟩
    · rintro ⟨-, word, rest, ht, hword, hrest⟩
      have hafter : afterKeyword? keyword t = some rest := afterKeyword?_eq_some.2 ⟨word, ht, hword⟩
      simp [hafter, (hends rest).2 hrest]

theorem found_wholeWord_iff (hne : keyword ≠ []) {t : Text} :
    (wholeWord keyword).found t = true ↔ HasWord keyword t := by
  rw [Recogniser.found, Recogniser.first?, Recogniser.isSome_search_iff]
  simp only [isSome_wholeWord_iff, Option.or_none]
  constructor
  · rintro ⟨u, y, rfl, -, hu, word, v, rfl, hword, hv⟩
    exact ⟨u, word, v, rfl, hword, hu, hv⟩
  · rintro ⟨u, word, v, rfl, hword, hu, hv⟩
    refine ⟨u, word ++ v, rfl, fun hnil => ?_, hu, word, v, rfl, hword, hv⟩
    obtain ⟨rfl, -⟩ := List.append_eq_nil_iff.1 hnil
    exact hne (List.map_eq_nil_iff.1 hword.symm)

theorem not_hasWord_nil (hne : keyword ≠ []) : ¬ HasWord keyword [] := by
  rintro ⟨u, word, v, hnil, hword, -⟩
  obtain ⟨rfl, -⟩ := List.append_eq_nil_iff.1 (List.append_eq_nil_iff.1 hnil.symm).2
  exact hne (List.map_eq_nil_iff.1 hword.symm)

section

variable (hletters : ∀ k ∈ keyword, (foldLetter k).isAlpha = true)
include hletters

/-- A word does not reach over a character that is none of a word. -/
theorem hasWord_append_cons_iff {a : Char} (ha : isWord a = false) {t s : Text} :
    HasWord keyword (t ++ a :: s) ↔ HasWord keyword t ∨ HasWord keyword s := by
  constructor
  · rintro ⟨u, word, v, heq, hword, hu, hv⟩
    have hout : a ∉ word := fun hmem => by
      rw [isWord_of_map_foldLetter_eq hletters hword a hmem] at ha
      cases ha
    rcases append_eq_append_cons heq.symm with ⟨right, rfl, rfl⟩ | ⟨left, rfl, hleft⟩
    · refine Or.inr ⟨right, word, v, rfl, hword, fun c hc => hu c ?_, hv⟩
      rw [List.getLast?_append, List.getLast?_cons_of_ne_nil (fun hnil => by simp [hnil] at hc)]
      simp [Option.mem_def.1 hc]
    · rcases append_eq_append_cons hleft with ⟨right, rfl, -⟩ | ⟨left', rfl, rfl⟩
      · exact absurd (by simp) hout
      · refine Or.inl ⟨u, word, left', rfl, hword, hu, fun c hc => hv c ?_⟩
        simp [Option.mem_def.1 hc]
  · rintro (⟨u, word, v, rfl, hword, hu, hv⟩ | ⟨u, word, v, rfl, hword, hu, hv⟩)
    · refine ⟨u, word, v ++ a :: s, by simp, hword, hu, fun c hc => ?_⟩
      cases v with
      | nil =>
        obtain rfl : a = c := by simpa using hc
        exact ha
      | cons d v => exact hv c (by simpa using hc)
    · refine ⟨t ++ a :: u, word, v, by simp, hword, fun c hc => ?_, hv⟩
      rw [List.getLast?_append, List.getLast?_cons] at hc
      cases hlast : u.getLast? with
      | none =>
        obtain rfl : a = c := by simpa [hlast] using hc
        exact ha
      | some d => exact hu c (by simpa [hlast] using hc)

theorem hasWord_joinWith_iff (hne : keyword ≠ []) (ls : List Text) :
    HasWord keyword (joinWith ['\n'] ls) ↔ ∃ l ∈ ls, HasWord keyword l :=
  joinWith_iff (not_hasWord_nil hne) (fun _ _ => hasWord_append_cons_iff hletters (by decide)) ls

end

end Text

end ScriptAudit
