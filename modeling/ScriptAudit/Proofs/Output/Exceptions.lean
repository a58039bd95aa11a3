import ScriptAudit.Proofs.Output.Echo
import ScriptAudit.Proofs.Text.Lines

/-!
# Exceptions in the output

The output tells of an exception by the word `Exception`, blanks and a text up to the end of the
line (`ExceptionLine`). What is told should be reported, unless it is a count. There is one more
text that is passed over: one that begins with a zero right behind a single blank, like the number
of an error in hexadecimal. With two blanks in front of it, it is reported.

* `ExceptionLine.exists_detail` — what is looked for finds each other line by itself.
* `ExceptionLine.Begins.suffix_detail` — a line inside the text of another one is told by that text.
* `Finding.exceptions_reported` — which lines are reported.
-/

namespace ScriptAudit

namespace Finding

variable {raw s t v y : Text}

/-! ## Lines of exceptions -/

/-- Whether a text is the word `Exception` in upper or lower case, perhaps with a colon. -/
def IsExceptionWord (word : Text) : Prop :=
  ∃ letters colon, word = letters ++ colon ∧
    letters.map foldLetter = "Exception".toList.map foldLetter ∧ (colon = [] ∨ colon = [':'])

/-- The word `Exception` with what is told behind it. -/
structure ExceptionLine where
  word : Text
  gap : Text
  detail : Text
  isWord : IsExceptionWord word
  gap_ne_nil : gap ≠ []
  blank_gap : Text.blank gap = true
  newline_notMem : '\n' ∉ detail

namespace ExceptionLine

/-- The line from its word on. -/
def text (l : ExceptionLine) : Text := l.word ++ (l.gap ++ l.detail)

/-- What is told. -/
def message (l : ExceptionLine) : Text := Text.trim l.detail

/-- Whether nothing but digits is told. -/
def IsCount (l : ExceptionLine) : Prop := l.message.all isDigit = true

/-- Whether there is a zero right behind a single blank. -/
def BeginsWithZero (l : ExceptionLine) : Prop := l.gap.length = 1 ∧ l.detail.head? = some '0'

instance (l : ExceptionLine) : Decidable l.IsCount := inferInstanceAs (Decidable (_ = _))

instance (l : ExceptionLine) : Decidable l.BeginsWithZero := inferInstanceAs (Decidable (_ ∧ _))

/-- Whether a text begins with a line. -/
def Begins (l : ExceptionLine) (t : Text) : Prop :=
  ∃ back, t = l.text ++ back ∧ ∀ c ∈ back.head?, c = '\n'

end ExceptionLine

/-! ## The word -/

/-- The word is followed by what follows the keyword and its colon. -/
theorem afterKeyword?_word {word : Text} (hword : IsExceptionWord word)
    (hs : ∃ b ∈ s.head?, isBlank b = true) :
    ∃ rest, Text.afterKeyword? "Exception" (word ++ s) = some rest ∧ afterColon rest = s := by
  obtain ⟨letters, colon, rfl, hletters, hcolon⟩ := hword
  refine ⟨colon ++ s, Text.afterKeyword?_eq_some.2 ⟨letters, List.append_assoc _ _ _, hletters⟩, ?_⟩
  rcases hcolon with rfl | rfl
  · obtain ⟨b, hb, hblank⟩ := hs
    obtain ⟨s, rfl⟩ := List.head?_eq_some_iff.1 hb
    have hne : ':' ≠ b := by
      rintro rfl
      exact absurd hblank (by decide)
    rw [List.nil_append, afterColon_cons, if_neg hne]
  · rw [List.singleton_append, afterColon_cons, if_pos rfl]

theorem isExceptionWord_of_afterKeyword? {rest : Text}
    (h : Text.afterKeyword? "Exception" t = some rest) :
    ∃ word, IsExceptionWord word ∧ t = word ++ afterColon rest := by
  obtain ⟨letters, rfl, hletters⟩ := Text.afterKeyword?_eq_some.1 h
  obtain ⟨colon, hrest, hcolon⟩ :
      ∃ colon, rest = colon ++ afterColon rest ∧ (colon = [] ∨ colon = [':']) := by
    cases rest with
    | nil => exact ⟨[], rfl, Or.inl rfl⟩
    | cons c cs =>
      rw [afterColon_cons]
      split
      · next hc => exact ⟨[':'], by rw [← hc]; rfl, Or.inr rfl⟩
      · exact ⟨[], rfl, Or.inl rfl⟩
  refine ⟨letters ++ colon, ⟨letters, colon, rfl, hletters, hcolon⟩, ?_⟩
  rw [List.append_assoc, ← hrest]

theorem newline_notMem_word {word : Text} (h : IsExceptionWord word) : '\n' ∉ word := by
  obtain ⟨letters, colon, rfl, hletters, hcolon⟩ := h
  rw [List.mem_append, not_or]
  constructor
  · intro hmem
    have := Text.isWord_of_map_foldLetter_eq (List.all_eq_true.1 (by decide)) hletters _ hmem
    exact absurd this (by decide)
  · rcases hcolon with rfl | rfl <;> decide

/-- The word begins with neither a blank nor a colon. -/
theorem head?_word {word : Text} (h : IsExceptionWord word) (s : Text) :
    ∃ c ∈ (word ++ s).head?, isBlank c = false ∧ ':' ≠ c := by
  obtain ⟨letters, colon, rfl, hletters, -⟩ := h
  cases letters with
  | nil => cases hletters
  | cons c letters =>
    have hfold : foldLetter c = foldLetter 'E' := (List.cons.inj hletters).1
    refine ⟨c, rfl, ?_, ?_⟩
    · rw [← Bool.not_eq_true]
      intro hblank
      have := isAlpha_foldLetter_of_isBlank hblank
      rw [hfold] at this
      exact absurd this (by decide)
    · rintro rfl
      exact absurd hfold (by decide)

/-- A text that begins with neither a blank nor a colon stays whole. -/
theorem exists_afterColon_append (hy : ∃ c ∈ y.head?, isBlank c = false ∧ ':' ≠ c) (w : Text) :
    ∃ w', afterColon (w ++ y) = w' ++ y := by
  obtain ⟨c, hc, -, hcolon⟩ := hy
  obtain ⟨y, rfl⟩ := List.head?_eq_some_iff.1 hc
  cases w with
  | nil =>
    refine ⟨[], ?_⟩
    rw [List.nil_append, afterColon_cons, if_neg hcolon]
  | cons d w =>
    rw [List.cons_append, afterColon_cons]
    split
    · exact ⟨w, rfl⟩
    · exact ⟨d :: w, rfl⟩

theorem exists_append_of_blank (hy : ∃ c ∈ y.head?, isBlank c = false ∧ ':' ≠ c) {gap w : Text}
    (hgap : Text.blank gap = true) (h : w ++ y = gap ++ s) : ∃ front, s = front ++ y := by
  obtain ⟨c, hc, hcblank, -⟩ := hy
  obtain ⟨y, rfl⟩ := List.head?_eq_some_iff.1 hc
  rcases List.append_eq_append_iff.1 h with ⟨g, rfl, hg⟩ | ⟨front, -, hfront⟩
  · cases g with
    | nil => exact ⟨[], hg.symm⟩
    | cons b g =>
      have hblank := List.all_eq_true.1 hgap b (by simp)
      rw [← (List.cons.inj hg).1, hcblank] at hblank
      exact absurd hblank Bool.false_ne_true
  · exact ⟨front, hfront⟩

/-! ## Reading a line -/

/-- What is found behind the word is found behind the blanks there. -/
theorem exceptionDetail_word {word : Text} (hword : IsExceptionWord word)
    (hs : ∃ b ∈ s.head?, isBlank b = true) (before : Option Char) :
    exceptionDetail before (word ++ s) =
      (detailAfter? 0 (s.takeWhile isBlank) (Text.trimLeft s)).bind fun d =>
        some (d.1, word.length + d.2) := by
  obtain ⟨rest, hrest, hcolon⟩ := afterKeyword?_word hword hs
  rw [exceptionDetail_eq, hrest, Option.bind_some, hcolon, List.length_append, Nat.add_sub_cancel]

/-- Something is found behind some of the blanks, unless a zero or the end of the line follows
them. -/
theorem isSome_detailAfter? {gap u rest : Text} (hgap : gap ≠ []) {c : Char}
    (hc : (u ++ rest).head? = some c) (hzero : c ≠ '0') (hline : c ≠ '\n') (passed : Nat) :
    (detailAfter? passed (gap ++ u) rest).isSome = true := by
  induction gap generalizing passed with
  | nil => exact absurd rfl hgap
  | cons b gap ih =>
    rw [List.cons_append, detailAfter?]
    by_cases hnil : gap = []
    · subst hnil
      rw [List.nil_append, hc]
      cases detailAfter? (passed + 1) u rest <;> simp [hzero, hline]
    · obtain ⟨find, hfind⟩ := Option.isSome_iff_exists.1 (ih hnil (passed + 1))
      rw [hfind]
      rfl

namespace ExceptionLine

variable {l l' : ExceptionLine}

/-- What is found is the detail of a line that does not begin with a zero. -/
theorem exists_of_exceptionDetail {before : Option Char} {find : Text} {n : Nat}
    (h : exceptionDetail before t = some (find, n)) :
    ∃ l : ExceptionLine, l.Begins t ∧ l.detail = find ∧ l.text.length = n ∧
      l.detail.head? ≠ some '0' := by
  rw [exceptionDetail_eq] at h
  obtain ⟨rest, hrest, h⟩ := Option.bind_eq_some_iff.1 h
  obtain ⟨⟨told, m⟩, hdetail, h⟩ := Option.bind_eq_some_iff.1 h
  obtain ⟨rfl, rfl⟩ := Prod.mk.inj (Option.some.inj h)
  obtain ⟨word, hword, ht⟩ := isExceptionWord_of_afterKeyword? hrest
  obtain ⟨gap, u, hblanks, hgap, hline, hm, hzero⟩ := exists_of_detailAfter? hdetail
  have hsplit : gap ++ (u ++ Text.trimLeft (afterColon rest)) = afterColon rest := by
    rw [← List.append_assoc, ← hblanks, Text.trimLeft, List.takeWhile_append_dropWhile]
  have hblank : Text.blank gap = true := List.all_eq_true.2 fun c hc =>
    List.mem_takeWhile_imp (hblanks ▸ List.mem_append_left u hc)
  have hnotMem : '\n' ∉ told := fun hmem => by
    have := List.mem_takeWhile_imp (hline ▸ hmem)
    exact absurd this (by decide)
  refine ⟨⟨word, gap, told, hword, hgap, hblank, hnotMem⟩,
    ⟨(u ++ Text.trimLeft (afterColon rest)).dropWhile (· ≠ '\n'), ?_, fun c hc => ?_⟩, rfl, ?_,
    hzero⟩
  · have hcut : told ++ (u ++ Text.trimLeft (afterColon rest)).dropWhile (· ≠ '\n') =
        u ++ Text.trimLeft (afterColon rest) := by
      rw [hline, List.takeWhile_append_dropWhile]
    rw [text, List.append_assoc, List.append_assoc, hcut, hsplit, ht]
  · simpa using Text.eq_false_of_mem_head?_dropWhile hc
  · rw [text, ht, List.length_append, List.length_append, List.length_append]
    dsimp only at hm ⊢
    omega

theorem head?_gap (l : ExceptionLine) (s : Text) :
    ∃ b ∈ (l.gap ++ s).head?, isBlank b = true := by
  obtain ⟨b, gap, hgap⟩ := List.exists_cons_of_ne_nil l.gap_ne_nil
  refine ⟨b, by rw [hgap]; rfl, List.all_eq_true.1 l.blank_gap b ?_⟩
  rw [hgap]
  exact List.mem_cons_self

/-- Lines that begin at the same place are the same behind the word. -/
theorem Begins.eq_behind_word (h : l.Begins t) (h' : l'.Begins t) :
    ∃ back back', l.gap ++ (l.detail ++ back) = l'.gap ++ (l'.detail ++ back') ∧
      (∀ c ∈ back.head?, c = '\n') ∧ ∀ c ∈ back'.head?, c = '\n' := by
  obtain ⟨back, rfl, hback⟩ := h
  obtain ⟨back', heq, hback'⟩ := h'
  simp only [text, List.append_assoc] at heq
  obtain ⟨rest, hrest, hcolon⟩ := afterKeyword?_word l.isWord (l.head?_gap (l.detail ++ back))
  obtain ⟨rest', hrest', hcolon'⟩ := afterKeyword?_word l'.isWord (l'.head?_gap (l'.detail ++ back'))
  rw [heq, hrest'] at hrest
  obtain rfl := Option.some.inj hrest
  exact ⟨back, back', hcolon.symm.trans hcolon', hback, hback'⟩

theorem not_blank_detail (hne : l.message ≠ []) : ¬ Text.blank l.detail = true := by
  intro hblank
  rw [message, Text.trim, Text.trimLeft_of_blank hblank] at hne
  exact hne rfl

/-- What is told is read from the end of the blanks up to the end of the line. -/
theorem trimRight_takeWhile (hne : l.message ≠ []) {back : Text} (hback : ∀ c ∈ back.head?, c = '\n') :
    Text.trimRight ((Text.trimLeft (l.gap ++ (l.detail ++ back))).takeWhile (· ≠ '\n')) =
      l.message := by
  have hnotMem : '\n' ∉ Text.trimLeft l.detail := fun hmem =>
    l.newline_notMem ((List.dropWhile_suffix _).subset hmem)
  rw [Text.trimLeft_append, if_pos l.blank_gap, Text.trimLeft_append, if_neg (not_blank_detail hne),
    Text.takeWhile_ne_append hnotMem hback]
  rfl

/-- Lines that begin at the same place tell the same. -/
theorem Begins.message_eq (h : l.Begins t) (h' : l'.Begins t) (hne : l.message ≠ [])
    (hne' : l'.message ≠ []) : l.message = l'.message := by
  obtain ⟨back, back', heq, hback, hback'⟩ := h.eq_behind_word h'
  rw [← trimRight_takeWhile hne hback, heq, trimRight_takeWhile hne' hback']

/-- Behind a single blank a zero is the beginning of what is told. -/
theorem Begins.head?_detail (h : l.Begins t) (h' : l'.Begins t) (hzero : l'.BeginsWithZero) :
    l.detail.head? = some '0' := by
  obtain ⟨back, back', heq, hback, -⟩ := h.eq_behind_word h'
  obtain ⟨b', hgap'⟩ := List.length_eq_one_iff.1 hzero.1
  obtain ⟨detail', hdetail'⟩ := List.head?_eq_some_iff.1 hzero.2
  obtain ⟨b, gap, hgap⟩ := List.exists_cons_of_ne_nil l.gap_ne_nil
  rw [hgap, hgap', hdetail'] at heq
  have heq := (List.cons.inj heq).2
  cases gap with
  | nil =>
    cases hdetail : l.detail with
    | nil =>
      rw [hdetail] at heq
      have hback : '0' = '\n' := hback '0' (by rw [show back = _ from heq]; rfl)
      exact absurd hback (by decide)
    | cons c detail =>
      rw [hdetail] at heq
      rw [(List.cons.inj heq).1]
      rfl
  | cons c gap =>
    have hblank : isBlank c = true := List.all_eq_true.1 l.blank_gap c (by rw [hgap]; simp)
    rw [(List.cons.inj heq).1] at hblank
    exact absurd hblank (by decide)

/-- Something is found where a line tells something, unless it begins with a zero. -/
theorem isSome_exceptionDetail (h : l.Begins t) (hline : '\n' ∉ l.gap) (hne : l.message ≠ [])
    (hzero : ¬ l.BeginsWithZero) (before : Option Char) :
    (exceptionDetail before t).isSome = true := by
  obtain ⟨back, rfl, -⟩ := h
  obtain ⟨c, rest, hrest⟩ : ∃ c rest, Text.trimLeft l.detail = c :: rest :=
    List.exists_cons_of_ne_nil fun hnil => hne (by rw [message, Text.trim, hnil]; rfl)
  have hc : isBlank c = false := Text.isBlank_head_dropWhile (by rw [← Text.trimLeft, hrest]; rfl)
  have hcline : c ≠ '\n' := by
    rintro rfl
    exact absurd hc (by decide)
  have hdetail : l.detail.takeWhile isBlank ++ c :: rest = l.detail := by
    rw [← hrest, Text.trimLeft, List.takeWhile_append_dropWhile]
  have hblanks : ∀ b ∈ l.gap ++ l.detail.takeWhile isBlank, isBlank b = true := fun b hb =>
    (List.mem_append.1 hb).elim (List.all_eq_true.1 l.blank_gap b) List.mem_takeWhile_imp
  have hsplit : l.gap ++ (l.detail ++ back) =
      (l.gap ++ l.detail.takeWhile isBlank) ++ c :: (rest ++ back) := by
    conv_lhs => rw [← hdetail]
    simp
  have hhead : ∀ d ∈ (c :: (rest ++ back)).head?, isBlank d = false := fun d hd =>
    Option.some.inj hd ▸ hc
  rw [text, List.append_assoc, List.append_assoc,
    exceptionDetail_word l.isWord (l.head?_gap (l.detail ++ back)), Text.trimLeft, hsplit,
    Text.takeWhile_append_of_head? hblanks hhead, Text.dropWhile_append_of_head? hblanks hhead,
    Option.isSome_bind]
  suffices hfound : (detailAfter? 0 (l.gap ++ l.detail.takeWhile isBlank)
      (c :: (rest ++ back))).isSome = true by
    obtain ⟨find, hfind⟩ := Option.isSome_iff_exists.1 hfound
    rw [hfind]
    rfl
  by_cases hczero : c = '0'
  · -- the last blank is left to what is told, since it is not the only one
    obtain ⟨init, b, hinit⟩ := List.eq_nil_or_concat (l.gap ++ l.detail.takeWhile isBlank)
      |>.resolve_left fun hnil => l.gap_ne_nil (List.append_eq_nil_iff.1 hnil).1
    rw [List.concat_eq_append] at hinit
    have hbblank : isBlank b = true := hblanks b (by rw [hinit]; simp)
    have hbline : b ≠ '\n' := by
      rintro rfl
      have hmem : '\n' ∈ l.gap ++ l.detail.takeWhile isBlank := by rw [hinit]; simp
      rcases List.mem_append.1 hmem with hmem | hmem
      · exact hline hmem
      · exact l.newline_notMem ((List.takeWhile_prefix _).subset hmem)
    have hbzero : b ≠ '0' := by
      rintro rfl
      exact absurd hbblank (by decide)
    have hne : init ≠ [] := by
      rintro rfl
      have hlength := congrArg List.length hinit
      have hpos := List.length_pos_iff.2 l.gap_ne_nil
      rw [List.length_append, List.nil_append, List.length_singleton] at hlength
      have hnil : l.detail.takeWhile isBlank = [] := List.length_eq_zero_iff.1 (by omega)
      rw [hnil, List.nil_append, hczero] at hdetail
      exact hzero ⟨by omega, by rw [← hdetail]; rfl⟩
    rw [hinit]
    exact isSome_detailAfter? hne rfl hbzero hbline 0
  · rw [← List.append_nil (l.gap ++ _)]
    exact isSome_detailAfter? (by simp [l.gap_ne_nil]) rfl hczero hcline 0

/-- What a line tells is found where it begins, unless it begins with a zero. -/
theorem exists_detail (h : l.Begins t) (hline : '\n' ∉ l.gap) (hne : l.message ≠ [])
    (hzero : ¬ l.BeginsWithZero) (before : Option Char) :
    ∃ find n, exceptionDetail before t = some (find, n) ∧ Text.trim find = l.message := by
  obtain ⟨⟨find, n⟩, hfind⟩ := Option.isSome_iff_exists.1
    (isSome_exceptionDetail h hline hne hzero before)
  obtain ⟨l', h', rfl, -, -⟩ := exists_of_exceptionDetail hfind
  refine ⟨_, n, hfind, ?_⟩
  obtain ⟨back, back', heq, hback, hback'⟩ := h.eq_behind_word h'
  have hread {l : ExceptionLine} (hline : '\n' ∉ l.gap) {back : Text}
      (hback : ∀ c ∈ back.head?, c = '\n') :
      (l.gap ++ (l.detail ++ back)).takeWhile (· ≠ '\n') = l.gap ++ l.detail := by
    have hnotMem : '\n' ∉ l.gap ++ l.detail := fun hmem =>
      (List.mem_append.1 hmem).elim hline l.newline_notMem
    rw [← List.append_assoc, Text.takeWhile_ne_append hnotMem hback]
  have htrim (l : ExceptionLine) : Text.trim (l.gap ++ l.detail) = l.message := by
    rw [Text.trim, Text.trimLeft_append, if_pos l.blank_gap]
    rfl
  have hhere := hread hline hback
  by_cases hgap : '\n' ∈ l'.gap
  · -- the line would end within the blanks that follow the word
    rw [heq, Text.takeWhile_ne_append_of_mem hgap] at hhere
    refine absurd (List.all_eq_true.2 fun c hc => ?_) (not_blank_detail hne)
    have hmem : c ∈ l'.gap.takeWhile (· ≠ '\n') := hhere ▸ List.mem_append_right l.gap hc
    exact List.all_eq_true.1 l'.blank_gap c ((List.takeWhile_prefix _).subset hmem)
  · rw [heq, hread hgap hback'] at hhere
    rw [← htrim l, ← hhere, htrim l']
    rfl

/-- A line inside another one stands at the end of what that one tells. -/
theorem Begins.suffix_detail (h : l.Begins y) (hline : '\n' ∉ l.gap) (hv : v ≠ [])
    (h' : l'.Begins (v ++ y)) (hlt : v.length < l'.text.length) : l.text <:+ l'.detail := by
  obtain ⟨back, rfl, hback⟩ := h
  obtain ⟨back', heq, hback'⟩ := h'
  have hhead := head?_word l.isWord (l.gap ++ (l.detail ++ back))
  obtain ⟨rest, hrest, -⟩ := afterKeyword?_word l.isWord (l.head?_gap (l.detail ++ back))
  obtain ⟨rest', hrest', hcolon⟩ := afterKeyword?_word l'.isWord (l'.head?_gap (l'.detail ++ back'))
  have hparts (l : ExceptionLine) (back : Text) :
      l.word ++ (l.gap ++ (l.detail ++ back)) = l.text ++ back := by simp [text]
  rw [hparts] at hhead hrest hrest'
  rw [← heq] at hrest'
  -- the word of the other line ends in front of the line, and so do the blanks there
  obtain ⟨w, rfl⟩ := Text.Unbordered.exists_append (by decide) hv hrest' hrest
  obtain ⟨w', hw'⟩ := exists_afterColon_append hhead w
  obtain ⟨front, hfront⟩ := exists_append_of_blank hhead l'.blank_gap (hw'.symm.trans hcolon)
  rcases List.append_eq_append_iff.1 hfront with ⟨g, -, hg⟩ | ⟨told, hdetail, htold⟩
  · have hlength := congrArg List.length heq
    have hshort := congrArg List.length hg
    simp only [List.length_append] at hlength hshort
    omega
  · have hnotMem : '\n' ∉ l.text := by
      simp only [text, List.mem_append, not_or]
      exact ⟨newline_notMem_word l.isWord, hline, l.newline_notMem⟩
    have hnotMem' : '\n' ∉ told := fun hmem =>
      l'.newline_notMem (by rw [hdetail]; exact List.mem_append_right front hmem)
    obtain rfl : l.text = told := by
      rw [← Text.takeWhile_ne_append hnotMem hback, htold, Text.takeWhile_ne_append hnotMem' hback']
    exact ⟨front, hdetail.symm⟩

end ExceptionLine

/-! ## Which lines are reported -/

theorem mem_exceptions_iff (raw : Text) (runs : List Trace.Run) {f : Finding} :
    f ∈ exceptions raw ↔ f ∈ errors raw runs ∧ f.kind = .exception := by
  have hkind : ofKind raw runs .exception = exceptions raw := rfl
  rw [← hkind, ← filter_kind_errors, List.mem_filter, decide_eq_true_eq]

/-- The messages are what is found, apart from counts. -/
theorem map_message_exceptions (raw : Text) : (exceptions raw).map message =
    ((exceptionDetail.occurrences raw).map Text.trim).filter fun m =>
      !(m.isEmpty || m.all isDigit) := by
  rw [exceptions, List.map_filterMap, ← List.filterMap_eq_filter]
  congr 1
  funext m
  cases h : m.isEmpty || m.all isDigit <;> simp [Option.guard, h]

theorem exists_mem_exceptions_iff {m : Text} : (∃ f ∈ exceptions raw, f.message = m) ↔
    (∃ find ∈ exceptionDetail.occurrences raw, Text.trim find = m) ∧ m ≠ [] ∧
      ¬ m.all isDigit = true := by
  rw [← List.mem_map, map_message_exceptions, List.mem_filter, List.mem_map, Bool.not_eq_true',
    Bool.or_eq_false_iff, Bool.not_eq_true, List.isEmpty_eq_false_iff]

section

variable {l : ExceptionLine} {front : Text}

/-- What a line of its own tells is reported, unless it is a count or begins with a zero. -/
theorem reported_of_mem_splitAt (h : front ++ l.text ∈ Text.splitAt '\n' raw)
    (hne : l.message ≠ []) (hcount : ¬ l.IsCount) (hzero : ¬ l.BeginsWithZero) :
    ∃ f ∈ exceptions raw, l.message <:+: f.message := by
  obtain ⟨above, back, rfl, hback⟩ := Text.exists_of_mem_splitAt h
  have hline : '\n' ∉ l.gap := fun hmem => Text.notMem_of_mem_splitAt h <|
    List.mem_append_right front (List.mem_append_right l.word (List.mem_append_left l.detail hmem))
  have hbegins : l.Begins (l.text ++ back) := ⟨back, rfl, hback⟩
  -- it is found by itself, or within the text of a line that begins further ahead
  obtain ⟨find, hfind, hmessage⟩ : ∃ find ∈ exceptionDetail.occurrences
      (above ++ (front ++ l.text ++ back)), l.message <:+: Text.trim find := by
    rw [List.append_assoc, ← List.append_assoc above]
    unfold Recogniser.occurrences
    rcases exceptionDetail.collect_append_or (Nat.zero_le (above ++ front).length) none
      (l.text ++ back) with ⟨finds, before, hsplit⟩ | ⟨u, v, b, find, n, -, hv, hfound, hn, hfind⟩
    · obtain ⟨find, n, hfound, hmessage⟩ := ExceptionLine.exists_detail hbegins hline hne hzero before
      refine ⟨find, ?_, hmessage ▸ List.infix_rfl⟩
      rw [hsplit]
      refine List.mem_append_right finds ?_
      cases hcons : l.text ++ back with
      | nil => rw [hcons] at hfound; cases hfound
      | cons c cs =>
        rw [hcons] at hfound
        rw [Recogniser.collect, hfound]
        exact List.mem_cons_self
    · obtain ⟨l', h', rfl, rfl, -⟩ := ExceptionLine.exists_of_exceptionDetail hfound
      obtain ⟨told, htold⟩ := hbegins.suffix_detail hline hv h' hn
      refine ⟨l'.detail, hfind, ?_⟩
      have hparts : l'.detail = (told ++ l.word ++ l.gap) ++ (l.detail ++ []) := by
        rw [← htold, ExceptionLine.text]
        simp
      rw [hparts]
      exact Text.trim_infix_trim_append _ _ _
  have hfound : Text.trim find ≠ [] := fun hnil => hne (List.infix_nil.1 (hnil ▸ hmessage))
  have hdigits : ¬ (Text.trim find).all isDigit = true := fun hall =>
    hcount (List.all_eq_true.2 fun c hc => List.all_eq_true.1 hall c (hmessage.subset hc))
  obtain ⟨f, hf, heq⟩ := exists_mem_exceptions_iff.2 ⟨⟨find, hfind, rfl⟩, hfound, hdigits⟩
  exact ⟨f, hf, heq ▸ hmessage⟩

end

/-- An exception is what the line at its place tells, which is no count and does not begin with a
zero. -/
theorem exists_line_of_mem_exceptions {f : Finding} (h : f ∈ exceptions raw) :
    ∃ front rest, raw = front ++ rest ∧
      (∃ l : ExceptionLine, l.Begins rest ∧ l.message = f.message ∧ l.message ≠ []) ∧
      ∀ l : ExceptionLine, l.Begins rest → l.message ≠ [] →
        f.message = l.message ∧ ¬ l.IsCount ∧ ¬ l.BeginsWithZero := by
  obtain ⟨⟨find, hfind, hmessage⟩, hne, hcount⟩ := exists_mem_exceptions_iff.1 ⟨f, h, rfl⟩
  obtain ⟨b, rest, n, ⟨front, hfront⟩, hfound⟩ := Recogniser.exists_of_mem_collect hfind
  obtain ⟨l, hl, rfl, -, hzero⟩ := ExceptionLine.exists_of_exceptionDetail hfound
  have hne' : l.message ≠ [] := fun hnil => hne (hmessage ▸ hnil)
  refine ⟨front, rest, hfront.symm, ⟨l, hl, hmessage, hne'⟩, fun l' hl' hnil => ?_⟩
  have hsame : f.message = l'.message := hmessage.symm.trans (hl.message_eq hl' hne' hnil)
  refine ⟨hsame, fun hdigits => hcount ?_, fun hzero' => hzero (hl.head?_detail hl' hzero')⟩
  rw [hsame]
  exact hdigits

/-- What the output tells of exceptions is reported, whatever commands are known, unless it is a
count, or begins with a zero right behind the single blank that follows the word. Each error of an
exception comes from a line of the output, which is neither. -/
theorem exceptions_reported (raw : Text) (runs : List Trace.Run) :
    (∀ (l : ExceptionLine) (front : Text), front ++ l.text ∈ Text.splitAt '\n' raw →
      l.message ≠ [] → ¬ l.IsCount → ¬ l.BeginsWithZero →
        ∃ f ∈ errors raw runs, f.kind = .exception ∧ l.message <:+: f.message) ∧
    ∀ f ∈ errors raw runs, f.kind = .exception → ∃ front rest, raw = front ++ rest ∧
      (∃ l : ExceptionLine, l.Begins rest ∧ l.message = f.message ∧ l.message ≠ []) ∧
      ∀ l : ExceptionLine, l.Begins rest → l.message ≠ [] →
        f.message = l.message ∧ ¬ l.IsCount ∧ ¬ l.BeginsWithZero := by
  constructor
  · intro l front h hne hcount hzero
    obtain ⟨f, hf, hmessage⟩ := reported_of_mem_splitAt h hne hcount hzero
    obtain ⟨herror, hkind⟩ := (mem_exceptions_iff raw runs).1 hf
    exact ⟨f, herror, hkind, hmessage⟩
  · intro f hf hkind
    exact exists_line_of_mem_exceptions ((mem_exceptions_iff raw runs).2 ⟨hf, hkind⟩)

/-- With two blanks in front of it the number of an error is reported. -/
theorem exceptions_reported_hexadecimal :
    ∃ f ∈ errors "Test Report\nException:  0x80004005 failed\n".toList [],
      f.kind = .exception ∧ "0x80004005 failed".toList <:+: f.message := by
  exact (exceptions_reported "Test Report\nException:  0x80004005 failed\n".toList []).1
    { word := "Exception:".toList
      gap := "  ".toList
      detail := "0x80004005 failed".toList
      isWord := ⟨"Exception".toList, [':'], rfl, rfl, Or.inr rfl⟩
      gap_ne_nil := by decide
      blank_gap := rfl
      newline_notMem := by decide } [] (by decide) (by decide) (by decide) (by decide)

/-- With a single blank it is passed over. -/
theorem exceptions_of_hexadecimal :
    "Exception: 0x80004005 failed".toList ∈
        Text.splitAt '\n' "Test Report\nException: 0x80004005 failed\n".toList ∧
      errors "Test Report\nException: 0x80004005 failed\n".toList [] = [] := by
  decide +kernel

end Finding

end ScriptAudit
