import ScriptAudit.Text.Letter

/-!
# Lines and margins

`Text.lines` cuts a text at its line breaks, a carriage return followed by a line feed being one
of them. `Text.trim` removes blank characters at both ends. Main statements: no line holds a line
break (`isBreak_eq_false_of_mem_lines`), and trimming leaves no blank at either end
(`isBlank_head_trim`, `isBlank_getLast_trim`).
-/

namespace ScriptAudit.Text

/-! ## Margins -/

/-- The text without leading blanks. -/
def trimLeft (t : Text) : Text := t.dropWhile isBlank

/-- The text without trailing blanks. -/
def trimRight (t : Text) : Text := (t.reverse.dropWhile isBlank).reverse

/-- The text without blanks at either end. -/
def trim (t : Text) : Text := trimRight (trimLeft t)

theorem isBlank_head_dropWhile {t : Text} {c : Char} (h : (t.dropWhile isBlank).head? = some c) :
    isBlank c = false := by
  induction t with
  | nil => simp at h
  | cons d t ih =>
    by_cases hd : isBlank d = true
    · exact ih (by simpa [hd] using h)
    · simp_all

/-- Trimming leaves no blank at the end. -/
theorem isBlank_getLast_trim {t : Text} {c : Char} (h : (trim t).getLast? = some c) :
    isBlank c = false := by
  rw [trim, trimRight, List.getLast?_reverse] at h
  exact isBlank_head_dropWhile h

/-- Trimming leaves no blank at the beginning. -/
theorem isBlank_head_trim {t : Text} {c : Char} (h : (trim t).head? = some c) :
    isBlank c = false := by
  obtain ⟨removed, hr⟩ : trim t <+: trimLeft t := by
    rw [← List.reverse_suffix, trim, trimRight, List.reverse_reverse]
    exact List.dropWhile_suffix _
  cases ht : trim t with
  | nil => simp [ht] at h
  | cons d ds =>
    have : (t.dropWhile isBlank).head? = some c := by
      rw [ht] at h hr
      rw [← trimLeft, ← hr]
      simpa using h
    exact isBlank_head_dropWhile this

/-- The text without the characters that satisfy `p` at either end. -/
def trimOf (p : Char → Bool) (t : Text) : Text :=
  ((t.dropWhile p).reverse.dropWhile p).reverse

/-- Whether the text holds nothing but blanks. -/
def blank (t : Text) : Bool := t.all isBlank

/-- The number of blanks, of any kind, at the left margin. -/
def margin (t : Text) : Nat := (t.takeWhile isBlank).length

/-- The number of space characters at the left margin. -/
def spaces (t : Text) : Nat := (t.takeWhile (· == ' ')).length

/-! ## Lines -/

/-- The lines of a text that may follow a carriage return, whose line feed then starts no line. -/
def linesFrom : (afterReturn : Bool) → Text → List Text
  | _, [] => []
  | afterReturn, c :: cs =>
    if afterReturn && c == '\n' then linesFrom false cs
    else if isBreak c then [] :: linesFrom (c == '\r') cs
    else
      match linesFrom false cs with
      | [] => [[c]]
      | l :: ls => (c :: l) :: ls

/-- The lines of a text without their line breaks; a final line break starts no further line. -/
def lines (t : Text) : List Text := linesFrom false t

theorem isBreak_eq_false_of_mem_linesFrom {t l : Text} {afterReturn : Bool}
    (h : l ∈ linesFrom afterReturn t) : ∀ c ∈ l, isBreak c = false := by
  induction t generalizing afterReturn l with
  | nil => simp [linesFrom] at h
  | cons c cs ih =>
    unfold linesFrom at h
    split at h
    · exact ih h
    · split at h
      · rcases List.mem_cons.1 h with rfl | h
        · simp
        · exact ih h
      · next hc =>
        split at h
        · simp_all
        · next first rest heq =>
          rcases List.mem_cons.1 h with rfl | h
          · intro x hx
            rcases List.mem_cons.1 hx with rfl | hx
            · simpa using hc
            · exact ih (heq ▸ List.mem_cons_self) x hx
          · exact ih (heq ▸ List.mem_cons_of_mem _ h)

/-- No line holds a line break. -/
theorem isBreak_eq_false_of_mem_lines {t l : Text} (h : l ∈ lines t) : ∀ c ∈ l, isBreak c = false :=
  isBreak_eq_false_of_mem_linesFrom h

theorem lineFeed_notMem_of_mem_lines {t l : Text} (h : l ∈ lines t) : '\n' ∉ l := fun hmem =>
  absurd (isBreak_eq_false_of_mem_lines h _ hmem) (by decide)

/-- Writes every line end as a line feed, in a text that may follow a carriage return. -/
def unifyFrom : (afterReturn : Bool) → Text → Text
  | _, [] => []
  | afterReturn, c :: cs =>
    if afterReturn && c == '\n' then unifyFrom false cs
    else if c = '\r' then '\n' :: unifyFrom true cs
    else c :: unifyFrom false cs

/-- The text with each carriage return, and each one followed by a line feed, as a line feed. -/
def unifyLineEnds (t : Text) : Text := unifyFrom false t

/-- The part of the text before the first line feed, and the part after it. -/
def cutLine (t : Text) : Text × Text :=
  (t.takeWhile (· ≠ '\n'), (t.dropWhile (· ≠ '\n')).drop 1)

/-- The words of a text: its longest parts without blanks. -/
def words (t : Text) : List Text :=
  go [] t
where
  /-- Collects the word under way, in reverse. -/
  go (word : Text) : Text → List Text
    | [] => if word.isEmpty then [] else [word.reverse]
    | c :: cs =>
      if isBlank c then if word.isEmpty then go [] cs else word.reverse :: go [] cs
      else go (c :: word) cs

end ScriptAudit.Text
