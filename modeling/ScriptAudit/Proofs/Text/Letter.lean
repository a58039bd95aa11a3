import Mathlib.Tactic.SplitIfs
import ScriptAudit.Text.Case
import ScriptAudit.Text.Letter

/-!
# Digits, blanks and letters

Which characters belong to which class is a matter of tables. What follows from the tables for
single classes is said here once: a plain digit stands for its value, no digit is blank, and case
makes no difference but for letters.
-/

namespace ScriptAudit

/-- A test of each character of a text. Deciding the statement itself may try all characters. -/
theorem Text.forall_mem_of_all {p : Char → Prop} [DecidablePred p] {t : Text}
    (h : t.all (fun c => decide (p c)) = true) : ∀ c ∈ t, p c :=
  fun c hc => of_decide_eq_true (List.all_eq_true.1 h c hc)

theorem toNat_of_isDigit {c : Char} (h : c.isDigit = true) : 48 ≤ c.toNat ∧ c.toNat ≤ 57 := by
  simp only [Char.isDigit, Bool.and_eq_true, decide_eq_true_eq] at h
  exact ⟨UInt32.le_iff_toNat_le.1 h.1, UInt32.le_iff_toNat_le.1 h.2⟩

theorem decimalValue?_of_isDigit {c : Char} (h : c.isDigit = true) :
    decimalValue? c = some (c.toNat - 48) := by
  have hlt : c.toNat < 128 := by
    have := toNat_of_isDigit h
    omega
  simp [decimalValue?, hlt, h]

/-- No digit of any script is blank: the blocks of ten digits lie between the blanks. -/
theorem isBlank_eq_false_of_isDecimal {c : Char} (h : isDecimal c = true) : isBlank c = false := by
  have hclear : (48 ≤ c.toNat ∧ c.toNat ≤ 57) ∨ (0x660 ≤ c.toNat ∧ c.toNat < 0x1680) ∨
      (0x1680 < c.toNat ∧ c.toNat < 0x2000) ∨ 0x3000 < c.toNat := by
    rw [isDecimal, decimalValue?] at h
    split_ifs at h with hlt hdigit
    · exact Or.inl (toNat_of_isDigit hdigit)
    · simp at h
    · have hzeros : ∀ z ∈ Text.Tables.decimalZeros, (0x660 ≤ z ∧ z + 9 < 0x1680) ∨
          (0x1680 < z ∧ z + 9 < 0x2000) ∨ 0x3000 < z := by decide
      rw [Option.isSome_map, List.find?_isSome] at h
      obtain ⟨z, hz, hin⟩ := h
      rw [Bool.and_eq_true, decide_eq_true_eq, decide_eq_true_eq] at hin
      have := hzeros z hz
      omega
  simp only [isBlank, Bool.or_eq_false_iff, Bool.and_eq_false_iff, decide_eq_false_iff_not,
    beq_eq_false_iff_ne]
  omega

/-- What is not blank is no line break. -/
theorem isBreak_eq_false_of_isBlank_eq_false {c : Char} (h : isBlank c = false) :
    isBreak c = false := by
  rw [← Bool.not_eq_true] at h ⊢
  exact fun hbreak => h (isBlank_of_isBreak hbreak)

theorem isBreak_eq_false_of_isDecimal {c : Char} (h : isDecimal c = true) : isBreak c = false :=
  isBreak_eq_false_of_isBlank_eq_false (isBlank_eq_false_of_isDecimal h)

/-! ## Letters -/

theorem isAlpha_iff {c : Char} :
    c.isAlpha = true ↔ (65 ≤ c.toNat ∧ c.toNat ≤ 90) ∨ (97 ≤ c.toNat ∧ c.toNat ≤ 122) := by
  show (decide ('A'.val ≤ c.val ∧ c.val ≤ 'Z'.val) ||
    (decide ('a'.val ≤ c.val) && decide (c.val ≤ 'z'.val))) = true ↔ _
  simp only [Bool.or_eq_true, Bool.and_eq_true, decide_eq_true_eq, UInt32.le_iff_toNat_le]
  rfl

theorem isAlpha_eq_false_of_isDecimal {c : Char} (h : isDecimal c = true) : c.isAlpha = false := by
  rw [← Bool.not_eq_true, isAlpha_iff]
  intro hletter
  have hlt : c.toNat < 128 := by omega
  rw [isDecimal, decimalValue?, if_pos hlt] at h
  split at h
  · next hdigit =>
    have := toNat_of_isDigit hdigit
    omega
  · cases h

theorem toLower_cases (c : Char) :
    (c.isAlpha = true ∧ c.toLower.isAlpha = true) ∨ c.toLower = c := by
  delta Char.toLower
  split
  · next hupper =>
    left
    have hlow : 65 ≤ c.toNat := UInt32.le_iff_toNat_le.1 hupper.1
    have hhigh : c.toNat ≤ 90 := UInt32.le_iff_toNat_le.1 hupper.2
    have hval : (c.val + ('a'.val - 'A'.val)).toNat = c.toNat + 32 := by
      rw [UInt32.toNat_add]
      exact Nat.mod_eq_of_lt (show c.toNat + 32 < 2 ^ 32 by omega)
    refine ⟨isAlpha_iff.2 (Or.inl ⟨hlow, hhigh⟩), isAlpha_iff.2 (Or.inr ?_)⟩
    show 97 ≤ (c.val + ('a'.val - 'A'.val)).toNat ∧ (c.val + ('a'.val - 'A'.val)).toNat ≤ 122
    omega
  · exact Or.inr rfl

/-- What is no letter when case does not count stands for itself. -/
theorem foldLetter_eq_self {c : Char} (h : (foldLetter c).isAlpha = false) : foldLetter c = c := by
  rw [foldLetter] at h ⊢
  split_ifs at h ⊢
  · rcases toLower_cases c with ⟨-, hlower⟩ | hlower
    · rw [hlower] at h
      exact absurd h.symm Bool.false_ne_true
    · exact hlower
  · exact absurd h (by decide)
  · exact absurd h (by decide)
  · exact absurd h (by decide)
  · rfl

/-- What is a letter when case does not count is a word character. -/
theorem isWord_of_isAlpha_foldLetter {c : Char} (h : (foldLetter c).isAlpha = true) :
    isWord c = true := by
  rw [foldLetter] at h
  split_ifs at h with hlt hi hs hk
  · have halpha : c.isAlpha = true := by
      rcases toLower_cases c with ⟨halpha, -⟩ | hlower
      · exact halpha
      · rwa [hlower] at h
    simp [isWord, hlt, Char.isAlphanum, halpha]
  · rw [Bool.or_eq_true, decide_eq_true_eq, decide_eq_true_eq] at hi
    rcases hi with rfl | rfl <;> decide +kernel
  · subst hs
    decide +kernel
  · have hword : Text.Tables.alphanumeric.has 0x212a = true := by decide +kernel
    rw [isWord, if_neg hlt, beq_iff_eq.1 hk, hword]
  · rw [isAlpha_iff] at h
    omega

/-- No word character is blank. -/
theorem isWord_eq_false_of_isBlank {c : Char} (h : isBlank c = true) : isWord c = false := by
  have hcodes : ∀ n ∈ [9, 10, 11, 12, 13, 28, 29, 30, 31, 32, 0x85, 0xa0, 0x1680, 0x2000, 0x2001,
      0x2002, 0x2003, 0x2004, 0x2005, 0x2006, 0x2007, 0x2008, 0x2009, 0x200a, 0x2028, 0x2029,
      0x202f, 0x205f, 0x3000], isWord (Char.ofNat n) = false := by decide +kernel
  rw [← Char.ofNat_toNat c]
  refine hcodes _ ?_
  simp only [isBlank, Bool.or_eq_true, Bool.and_eq_true, decide_eq_true_eq, beq_iff_eq] at h
  simp only [List.mem_cons, List.not_mem_nil, or_false]
  omega

theorem isWord_of_isAlphanum {c : Char} (h : c.isAlphanum = true) : isWord c = true := by
  have hlt : c.toNat < 128 := by
    rw [Char.isAlphanum, Bool.or_eq_true] at h
    rcases h with h | h
    · have := isAlpha_iff.1 h
      omega
    · have := toNat_of_isDigit h
      omega
  simp [isWord, hlt, h]

theorem ne_of_isAlphanum {c d : Char} (h : c.isAlphanum = true) (hd : d.isAlphanum = false) :
    c ≠ d := by
  rintro rfl
  rw [h] at hd
  exact Bool.false_ne_true hd.symm

theorem isBlank_eq_false_of_isWord {c : Char} (h : isWord c = true) : isBlank c = false := by
  rw [← Bool.not_eq_true]
  intro hblank
  rw [isWord_eq_false_of_isBlank hblank] at h
  exact Bool.false_ne_true h

/-- A digit of any script is no letter when case does not count. -/
theorem isAlpha_foldLetter_of_isDecimal {c : Char} (h : isDecimal c = true) :
    (foldLetter c).isAlpha = false := by
  have halpha := isAlpha_eq_false_of_isDecimal h
  rw [foldLetter]
  split_ifs with hlt hi hs hk
  · rcases toLower_cases c with ⟨hletter, -⟩ | hlower
    · rw [halpha] at hletter
      cases hletter
    · rwa [hlower]
  · rw [Bool.or_eq_true, decide_eq_true_eq, decide_eq_true_eq] at hi
    rcases hi with rfl | rfl
    · exact absurd h (by decide +kernel)
    · exact absurd h (by decide +kernel)
  · rw [hs] at h
    exact absurd h (by decide +kernel)
  · have hkelvin : isDecimal (Char.ofNat 0x212a) = false := by decide +kernel
    rw [← beq_iff_eq.1 hk, Char.ofNat_toNat, h] at hkelvin
    cases hkelvin
  · exact halpha

/-- A digit is no letter when case does not count. -/
theorem isAlpha_foldLetter_of_isDigit {c : Char} (h : c.isDigit = true) :
    (foldLetter c).isAlpha = false :=
  isAlpha_foldLetter_of_isDecimal (by rw [isDecimal, decimalValue?_of_isDigit h]; rfl)

/-- A blank is no letter when case does not count. -/
theorem isAlpha_foldLetter_of_isBlank {c : Char} (h : isBlank c = true) :
    (foldLetter c).isAlpha = false := by
  rw [← Bool.not_eq_true]
  intro hletter
  rw [isBlank_eq_false_of_isWord (isWord_of_isAlpha_foldLetter hletter)] at h
  cases h

end ScriptAudit
