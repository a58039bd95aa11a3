import Mathlib.Data.Nat.Digits.Lemmas
import ScriptAudit.Json.Printer
import ScriptAudit.Json.Reader

/-!
# Strings and what they stand for

A text can be written as a string in many ways, since a character may stand for itself or be escaped.
`Spells` says what stands between the quotation marks for a text; the two halves of a code beyond the
first plane belong together.

* `string?_append` — each of these ways is read back, up to the closing quotation mark.
* `spells_escapes` — strings are written in one of these ways.
-/

namespace ScriptAudit.Json

/-! ## Reading -/

/-- What a text stands for between the quotation marks of a string. -/
inductive Spells : (s t : Text) → Prop
  /-- Nothing. -/
  | nil : Spells [] []
  /-- A character that stands for itself. -/
  | char {c : Char} {s t : Text} (hquote : c ≠ '"') (hescape : c ≠ '\\') (hcontrol : 32 ≤ c.toNat)
      (rest : Spells s t) : Spells (c :: s) (c :: t)
  /-- A backslash and the letter of an escape. -/
  | escape {e c : Char} {s t : Text} (he : simpleEscape? e = some c) (rest : Spells s t) :
      Spells (c :: s) ('\\' :: e :: t)
  /-- The code of a character, in four hexadecimal digits. -/
  | unicode {a b c d : Char} {n : Nat} {s t : Text} (hn : hexValue? [a, b, c, d] = some n)
      (hwhole : n < 0xd800 ∨ 0xe000 ≤ n) (rest : Spells s t) :
      Spells (Char.ofNat n :: s) ('\\' :: 'u' :: a :: b :: c :: d :: t)
  /-- The two halves of the code of a character. -/
  | pair {a b c d a' b' c' d' : Char} {high low : Nat} {s t : Text}
      (hhigh : hexValue? [a, b, c, d] = some high) (hrange : 0xd800 ≤ high ∧ high < 0xdc00)
      (hlow : hexValue? [a', b', c', d'] = some low) (hrange' : 0xdc00 ≤ low ∧ low < 0xe000)
      (rest : Spells s t) :
      Spells (Char.ofNat (0x10000 + (high - 0xd800) * 0x400 + (low - 0xdc00)) :: s)
        ('\\' :: 'u' :: a :: b :: c :: d :: '\\' :: 'u' :: a' :: b' :: c' :: d' :: t)

/-- A string is read up to its closing quotation mark. -/
theorem string?_append {s t : Text} (h : Spells s t) (rest : Text) :
    string? none (t ++ '"' :: rest) = some (s, rest) := by
  induction h with
  | nil => rfl
  | @char c s t hquote hescape hcontrol _ ih =>
    rw [List.cons_append, string?]
    · simp [ih, loneHalf, hescape, hcontrol]
    · exact hquote
    · exact fun _ _ _ _ _ hc _ => hescape hc
    · exact fun _ _ hc _ => hescape hc
  | @escape e c s t he _ ih =>
    have heu : e ≠ 'u' := by
      rintro rfl
      cases he
    rw [List.cons_append, List.cons_append, string?]
    · simp [ih, he, loneHalf]
    · exact fun _ _ _ _ _ hc _ => heu hc
  | @unicode a b c d n s t hn hwhole _ ih =>
    have hhigh : ¬ (0xd800 ≤ n ∧ n < 0xdc00) := by omega
    have hlow : ¬ (0xdc00 ≤ n ∧ n < 0xe000) := by omega
    simp only [List.cons_append]
    rw [string?, hn]
    simp [ih, hhigh, hlow, loneHalf]
  | @pair a b c d a' b' c' d' high low s t hhigh hrange hlow hrange' _ ih =>
    have hfirst : ¬ (0xd800 ≤ low ∧ low < 0xdc00) := by omega
    have hnext : string? (some high) ('\\' :: 'u' :: a' :: b' :: c' :: d' :: (t ++ '"' :: rest)) =
        some (Char.ofNat (0x10000 + (high - 0xd800) * 0x400 + (low - 0xdc00)) :: s, rest) := by
      rw [string?, hlow]
      simp [ih, hrange', hfirst]
    simp only [List.cons_append]
    rw [string?, hhigh]
    simp [hnext, hrange, loneHalf]

/-- A text without quotation marks, backslashes and control characters stands for itself. -/
theorem spells_self {t : Text} (h : ∀ c ∈ t, c ≠ '"' ∧ c ≠ '\\' ∧ 32 ≤ c.toNat) : Spells t t := by
  induction t with
  | nil => exact .nil
  | cons c t ih =>
    obtain ⟨⟨hquote, hescape, hcontrol⟩, ht⟩ := List.forall_mem_cons.1 h
    exact .char hquote hescape hcontrol (ih ht)

/-! ## Writing -/

theorem toDigits_concat {n : Nat} (h : 16 ≤ n) :
    Nat.toDigits 16 n = Nat.toDigits 16 (n / 16) ++ [Nat.digitChar (n % 16)] := by
  rw [Nat.toDigits_eq_if (by decide), if_neg (by omega)]

/-- Four hexadecimal digits, with zeros in front. -/
theorem hex_four {n : Nat} (hn : n < 65536) : Text.hex 4 n = [Nat.digitChar (n / 4096),
    Nat.digitChar (n / 256 % 16), Nat.digitChar (n / 16 % 16), Nat.digitChar (n % 16)] := by
  have hsecond : n / 16 / 16 = n / 256 := by omega
  have hthird : n / 256 / 16 = n / 4096 := by omega
  rw [Text.hex]
  rcases Nat.lt_or_ge n 16 with h | h
  · have hzero : n / 4096 = 0 ∧ n / 256 = 0 ∧ n / 16 = 0 ∧ n % 16 = n := by omega
    rw [Nat.toDigits_of_lt_base h, hzero.1, hzero.2.1, hzero.2.2.1, hzero.2.2.2]
    rfl
  rw [toDigits_concat h]
  rcases Nat.lt_or_ge n 256 with h | h
  · have hzero : n / 4096 = 0 ∧ n / 256 = 0 ∧ n / 16 % 16 = n / 16 := by omega
    rw [Nat.toDigits_of_lt_base (by omega), hzero.1, hzero.2.1, hzero.2.2]
    rfl
  rw [toDigits_concat (by omega), hsecond]
  rcases Nat.lt_or_ge n 4096 with h | h
  · have hzero : n / 4096 = 0 ∧ n / 256 % 16 = n / 256 := by omega
    rw [Nat.toDigits_of_lt_base (by omega), hzero.1, hzero.2]
    rfl
  rw [toDigits_concat (by omega), hthird, Nat.toDigits_of_lt_base (by omega)]
  rfl

theorem hexDigit?_digitChar {n : Nat} (h : n < 16) : hexDigit? (Nat.digitChar n) = some n := by
  have hall : ∀ n : Fin 16, hexDigit? (Nat.digitChar n) = some n.1 := by decide
  exact hall ⟨n, h⟩

/-- The escape of a code consists of four hexadecimal digits with this value. -/
theorem exists_unitEscape_eq {n : Nat} (hn : n < 65536) : ∃ a b c d,
    unitEscape n = ['\\', 'u', a, b, c, d] ∧ hexValue? [a, b, c, d] = some n := by
  have hfirst : hexDigit? (Nat.digitChar (n / 4096)) = some (n / 4096) :=
    hexDigit?_digitChar (by omega)
  have hrest (m : Nat) : hexDigit? (Nat.digitChar (m % 16)) = some (m % 16) :=
    hexDigit?_digitChar (Nat.mod_lt m (by decide))
  refine ⟨_, _, _, _, by rw [unitEscape, hex_four hn], ?_⟩
  simp [hexValue?, hfirst, hrest]
  omega

theorem spells_escape_append {c : Char} {s t : Text} (h : Spells s t) :
    Spells (c :: s) (escape c ++ t) := by
  have hmark {e : Char} (he : simpleEscape? e = some c) : Spells (c :: s) (['\\', e] ++ t) :=
    .escape he h
  have hcode : c.toNat < 0xd800 ∨ 0xdfff < c.toNat ∧ c.toNat < 0x110000 := c.valid
  unfold escape
  split_ifs with hquote hescape hfeed hreturn htab hback hform hvisible hplane
  · exact hmark (by rw [hquote]; rfl)
  · exact hmark (by rw [hescape]; rfl)
  · exact hmark (by rw [hfeed]; rfl)
  · exact hmark (by rw [hreturn]; rfl)
  · exact hmark (by rw [htab]; rfl)
  · exact hmark (by rw [hback]; rfl)
  · exact hmark (by rw [hform]; rfl)
  · rw [Bool.and_eq_true, decide_eq_true_iff] at hvisible
    exact .char hquote hescape hvisible.1 h
  · obtain ⟨a, b, d, e, hunit, hvalue⟩ := exists_unitEscape_eq hplane
    have := Spells.unicode hvalue (by omega) h
    rw [hunit]
    rwa [Char.ofNat_toNat] at this
  · -- the two halves make up the code again
    obtain ⟨a, b, d, e, hunit, hvalue⟩ :=
      exists_unitEscape_eq (n := 0xd800 + (c.toNat - 0x10000) / 0x400) (by omega)
    obtain ⟨a', b', d', e', hunit', hvalue'⟩ :=
      exists_unitEscape_eq (n := 0xdc00 + (c.toNat - 0x10000) % 0x400) (by omega)
    have hsum : 0x10000 + (0xd800 + (c.toNat - 0x10000) / 0x400 - 0xd800) * 0x400 +
        (0xdc00 + (c.toNat - 0x10000) % 0x400 - 0xdc00) = c.toNat := by omega
    have := Spells.pair hvalue (by omega) hvalue' (by omega) h
    dsimp only
    rw [hunit, hunit']
    rwa [hsum, Char.ofNat_toNat] at this

/-- Every text is spelled by its escapes. -/
theorem spells_escapes (t : Text) : Spells t (t.flatMap escape) := by
  induction t with
  | nil => exact .nil
  | cons c t ih => exact spells_escape_append ih

end ScriptAudit.Json
