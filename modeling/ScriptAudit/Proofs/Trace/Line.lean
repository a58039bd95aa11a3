import Mathlib.Data.List.TakeWhile
import ScriptAudit.Output.Trace
import ScriptAudit.Proofs.Text.Letter
import ScriptAudit.Proofs.Text.Words

/-!
# Printed lines of a trace

A command of a trace is printed on a line of its own, its result on the line below, both indented by
the level of the command. Reading is shown to undo this line by line.

* `IsTimestamp`, `Text.Flush` — what timestamps and texts look like that can be printed.
* `Run.print` — the lines of a command.
* `entry?_command`, `entry?_result` — what stands on a printed line is read off it.
* `token?_commandLine`, `token?_resultLine` — and so is its level.
-/

namespace ScriptAudit

namespace Text

/-- A text that reaches both margins of its line: it is not empty, has no blank at either end and no
line break. -/
structure Flush (t : Text) : Prop where
  ne_nil : t ≠ []
  isBlank_head : ∀ c ∈ t.head?, isBlank c = false
  isBlank_last : ∀ c ∈ t.getLast?, isBlank c = false
  isBreak_eq_false : ∀ c ∈ t, isBreak c = false

instance (t : Text) : Decidable (Flush t) :=
  decidable_of_iff (t ≠ [] ∧ t.head?.all (!isBlank ·) = true ∧ t.getLast?.all (!isBlank ·) = true ∧
      t.all (!isBreak ·) = true) <| by
    have hend (o : Option Char) : o.all (!isBlank ·) = true ↔ ∀ c ∈ o, isBlank c = false := by
      cases o <;> simp
    rw [hend, hend, List.all_eq_true]
    simp only [Bool.not_eq_true']
    exact ⟨fun ⟨hne, hhead, hlast, hbreak⟩ => ⟨hne, hhead, hlast, hbreak⟩,
      fun ⟨hne, hhead, hlast, hbreak⟩ => ⟨hne, hhead, hlast, hbreak⟩⟩

/-- A flush text stays flush with something in front of it. -/
theorem Flush.append {front t : Text} (hhead : ∀ c ∈ (front ++ t).head?, isBlank c = false)
    (hfront : ∀ c ∈ front, isBreak c = false) (ht : Flush t) : Flush (front ++ t) where
  ne_nil := fun hnil => ht.ne_nil (List.append_eq_nil_iff.1 hnil).2
  isBlank_head := hhead
  isBlank_last := by
    obtain ⟨c, hc⟩ := Option.isSome_iff_exists.1 (List.getLast?_isSome.2 ht.ne_nil)
    have hlast := ht.isBlank_last
    rw [hc] at hlast
    rwa [List.getLast?_append, hc, Option.some_or]
  isBreak_eq_false := by
    intro c hc
    rcases List.mem_append.1 hc with hc | hc
    · exact hfront c hc
    · exact ht.isBreak_eq_false c hc

theorem mem_joinWith {sep : Text} {ts : List Text} {c : Char} (h : c ∈ joinWith sep ts) :
    c ∈ sep ∨ ∃ t ∈ ts, c ∈ t := by
  induction ts with
  | nil => simp [joinWith] at h
  | cons t ts ih =>
    cases ts with
    | nil => exact Or.inr ⟨t, List.mem_cons_self, h⟩
    | cons u us =>
      rw [joinWith, List.mem_append, List.mem_append] at h
      · rcases h with (h | h) | h
        · exact Or.inr ⟨t, List.mem_cons_self, h⟩
        · exact Or.inl h
        · exact (ih h).imp_right fun ⟨v, hv, hc⟩ => ⟨v, List.mem_cons_of_mem _ hv, hc⟩
      · simp

theorem isBlank_of_mem_copies {width : Nat} : ∀ c ∈ copies width ' ', isBlank c = true := by
  intro c hc
  rw [List.eq_of_mem_replicate hc]
  rfl

theorem Flush.trim_copies_append {t : Text} (h : Flush t) (width : Nat) :
    trim (copies width ' ' ++ t) = t := by
  rw [trim, trimLeft, dropWhile_append_of_head? isBlank_of_mem_copies h.isBlank_head,
    trimRight_eq_self h.isBlank_last]

theorem Flush.trim_eq {t : Text} (h : Flush t) : trim t = t := h.trim_copies_append 0

end Text

namespace Trace

open Text (Flush)

/-! ## Timestamps -/

/-- Numbers with the given counts of digits, with `sep` between them. -/
def IsFields (sep : Char) (counts : List Nat) (t : Text) : Prop :=
  ∃ parts : List Text, t = Text.joinWith [sep] parts ∧ parts.map List.length = counts ∧
    ∀ p ∈ parts, ∀ c ∈ p, isDecimal c = true

/-- A date as in `2026-01-20`, a space and a time as in `00:39:52`. -/
def IsTimestamp (t : Text) : Prop :=
  ∃ date time, t = date ++ ' ' :: time ∧ IsFields '-' [4, 2, 2] date ∧ IsFields ':' [2, 2, 2] time

theorem isFields_joinWith (sep : Char) {parts : List Text}
    (h : parts.all (fun p => p.all isDecimal) = true) :
    IsFields sep (parts.map List.length) (Text.joinWith [sep] parts) :=
  ⟨parts, rfl, rfl, fun p hp => List.all_eq_true.1 (List.all_eq_true.1 h p hp)⟩

theorem digits?_append {p : Text} (hp : ∀ c ∈ p, isDecimal c = true) (rest : Text) :
    digits? p.length (p ++ rest) = some (p, rest) := by
  have hall : p.all isDecimal = true := List.all_eq_true.2 hp
  simp [digits?, hall]

theorem fields?_append {sep : Char} {counts : List Nat} {t : Text} (h : IsFields sep counts t)
    (rest : Text) : fields? sep counts (t ++ rest) = some (t, rest) := by
  obtain ⟨parts, rfl, rfl, hparts⟩ := h
  induction parts with
  | nil => rfl
  | cons p ps ih =>
    have hp := digits?_append (hparts p List.mem_cons_self)
    cases ps with
    | nil => simpa [fields?, Text.joinWith] using hp rest
    | cons q qs =>
      have ih := ih fun u hu => hparts u (List.mem_cons_of_mem _ hu)
      have hjoin : Text.joinWith [sep] (p :: q :: qs) ++ rest =
          p ++ ([sep] ++ (Text.joinWith [sep] (q :: qs) ++ rest)) := by
        simp [Text.joinWith]
      rw [List.map_cons] at ih
      rw [hjoin, List.map_cons, List.map_cons, fields?]
      · simp [hp, Text.after?, ih, Text.joinWith]
      · simp

theorem gap?_append (blanks : Text) {rest : Text} (hne : blanks ≠ [])
    (hblanks : ∀ c ∈ blanks, isBlank c = true) (hrest : ∀ c ∈ rest.head?, isBlank c = false) :
    gap? (blanks ++ rest) = some (blanks, rest) := by
  rw [gap?, Text.takeWhile_append_of_head? hblanks hrest, List.drop_left]
  simp [hne]

theorem gap?_space {rest : Text} (hrest : ∀ c ∈ rest.head?, isBlank c = false) :
    gap? (' ' :: rest) = some ([' '], rest) :=
  gap?_append [' '] (by simp) (Text.forall_mem_of_all (by decide)) hrest

/-- Digits that are not empty begin with a digit. -/
theorem IsFields.isBlank_head {sep : Char} {n : Nat} {counts : List Nat} {t : Text}
    (h : IsFields sep ((n + 1) :: counts) t) (rest : Text) :
    ∀ c ∈ (t ++ rest).head?, isBlank c = false := by
  obtain ⟨parts, rfl, hlengths, hparts⟩ := h
  cases parts with
  | nil => simp at hlengths
  | cons p ps =>
    rw [List.map_cons, List.cons.injEq] at hlengths
    obtain ⟨c, cs, rfl⟩ := List.exists_cons_of_length_eq_add_one hlengths.1
    intro d hd
    have hd : d = c := by cases ps <;> simpa [Text.joinWith, eq_comm] using hd
    subst hd
    exact isBlank_eq_false_of_isDecimal (hparts _ List.mem_cons_self _ List.mem_cons_self)

theorem IsFields.isBreak_eq_false {sep : Char} {counts : List Nat} {t : Text}
    (h : IsFields sep counts t) (hsep : isBreak sep = false) : ∀ c ∈ t, isBreak c = false := by
  obtain ⟨parts, rfl, -, hparts⟩ := h
  intro c hc
  rcases Text.mem_joinWith hc with hc | ⟨p, hp, hc⟩
  · rwa [List.mem_singleton.1 hc]
  · exact isBreak_eq_false_of_isDecimal (hparts p hp c hc)

theorem timestamp?_append {stamp : Text} (h : IsTimestamp stamp) (rest : Text) :
    timestamp? (stamp ++ rest) = some (stamp, rest) := by
  obtain ⟨date, time, rfl, hdate, htime⟩ := h
  have hgap : gap? (' ' :: (time ++ rest)) = some ([' '], time ++ rest) :=
    gap?_space (htime.isBlank_head rest)
  rw [List.append_assoc, List.cons_append, timestamp?]
  simp [fields?_append hdate, hgap, fields?_append htime]

theorem IsTimestamp.isBlank_head {stamp : Text} (h : IsTimestamp stamp) (rest : Text) :
    ∀ c ∈ (stamp ++ rest).head?, isBlank c = false := by
  obtain ⟨date, time, rfl, hdate, htime⟩ := h
  rw [List.append_assoc]
  exact hdate.isBlank_head _

theorem IsTimestamp.isBreak_eq_false {stamp : Text} (h : IsTimestamp stamp) :
    ∀ c ∈ stamp, isBreak c = false := by
  obtain ⟨date, time, rfl, hdate, htime⟩ := h
  intro c hc
  rcases List.mem_append.1 hc with hc | hc
  · exact hdate.isBreak_eq_false rfl c hc
  · rcases List.mem_cons.1 hc with rfl | hc
    · rfl
    · exact htime.isBreak_eq_false rfl c hc

/-- A timestamp, some words and a flush text make up a flush text. -/
theorem flush_entry {stamp t : Text} (words : Text) (hstamp : IsTimestamp stamp)
    (hwords : ∀ c ∈ words, isBreak c = false) (ht : Flush t) : Flush (stamp ++ (words ++ t)) := by
  rw [← List.append_assoc]
  refine Flush.append ?_ (fun c hc => ?_) ht
  · rw [List.append_assoc]
    exact hstamp.isBlank_head _
  · rcases List.mem_append.1 hc with hc | hc
    · exact hstamp.isBreak_eq_false c hc
    · exact hwords c hc

/-! ## Codes -/

theorem isDigit_of_mem_ofNat {n : Nat} {c : Char} (h : c ∈ Text.ofNat n) : c.isDigit = true :=
  Nat.isDigit_of_mem_toDigits (by decide) (by decide) h

theorem isDecimal_of_mem_ofNat {n : Nat} {c : Char} (h : c ∈ Text.ofNat n) :
    isDecimal c = true := by
  rw [isDecimal, decimalValue?_of_isDigit (isDigit_of_mem_ofNat h)]
  rfl

theorem filterMap_decimalValue? {t : Text} (h : ∀ c ∈ t, c.isDigit = true) :
    t.filterMap decimalValue? = t.map fun c => c.toNat - '0'.toNat := by
  induction t with
  | nil => rfl
  | cons c cs ih =>
    rw [List.filterMap_cons_some (decimalValue?_of_isDigit (h c List.mem_cons_self)),
      ih fun d hd => h d (List.mem_cons_of_mem _ hd)]
    rfl

/-- A number is read off its digits. -/
theorem value_filterMap_ofNat (n : Nat) :
    Numeral.value ((Text.ofNat n).filterMap decimalValue?) = n := by
  have hread : Nat.ofDigitChars 10 (Text.ofNat n) 0 = n :=
    Nat.ofDigitChars_toDigits (by decide) (by decide)
  rw [filterMap_decimalValue? fun c hc => isDigit_of_mem_ofNat hc, Numeral.value, List.foldl_map]
  exact hread

theorem count_ofNat {n : Nat} (h : (Text.ofNat n).length ≤ Numeral.maxDigits) :
    count (Text.ofNat n) = .ok n := by
  rw [count, if_neg (Nat.not_lt.2 h), value_filterMap_ofNat]

/-! ## Printing -/

namespace Run

/-- The margin of the lines of a command. -/
def indent (r : Run) : Text := Text.copies (indentWidth * r.level) ' '

/-- The line of a command. -/
def commandLine (r : Run) : Text :=
  r.indent ++ (r.timestamp ++ ' ' :: ("Command:".toList ++ ' ' :: ' ' :: r.text))

/-- The line of the result of a command. -/
def resultLine (r : Run) (o : Outcome) : Text :=
  r.indent ++ (r.timestamp ++
    ' ' :: ("Result".toList ++ ' ' :: '(' :: (Text.ofNat o.code ++ ')' :: ' ' :: o.text)))

/-- The lines of a command: its own one, and the one of its result if it has one. -/
def print (r : Run) : List Text := r.commandLine :: (r.outcome.map r.resultLine).toList

/-- What a command has to be like to be printed. -/
structure Printable (r : Run) : Prop where
  timestamp : IsTimestamp r.timestamp
  text : Flush r.text
  outcome : ∀ o ∈ r.outcome, Flush o.text ∧ (Text.ofNat o.code).length ≤ Numeral.maxDigits

end Run

/-! ## Reading an entry -/

section

variable {stamp t : Text}

theorem entry?_command (hstamp : IsTimestamp stamp) (ht : Flush t) :
    entry? (stamp ++ ' ' :: ("Command:".toList ++ ' ' :: ' ' :: t)) = some ⟨stamp, none, t⟩ := by
  have hgap : gap? (' ' :: ("Command:".toList ++ ' ' :: ' ' :: t)) =
      some ([' '], "Command:".toList ++ ' ' :: ' ' :: t) := gap?_space (by simp; decide)
  have htext : gap? (' ' :: ' ' :: t) = some ([' ', ' '], t) :=
    gap?_append [' ', ' '] (by simp) (Text.forall_mem_of_all (by decide)) ht.isBlank_head
  rw [ entry?, timestamp?_append hstamp]
  simp only [Option.bind_eq_bind, Option.bind_some, hgap, Text.after?_append, htext]
  simp [ht.ne_nil]

theorem entry?_result (hstamp : IsTimestamp stamp) (ht : Flush t) (code : Nat) :
    entry? (stamp ++ ' ' ::
        ("Result".toList ++ ' ' :: '(' :: (Text.ofNat code ++ ')' :: ' ' :: t))) =
      some ⟨stamp, some (Text.ofNat code), t⟩ := by
  have hgap : gap? (' ' :: ("Result".toList ++ ' ' :: '(' :: (Text.ofNat code ++ ')' :: ' ' :: t))) =
      some ([' '], "Result".toList ++ ' ' :: '(' :: (Text.ofNat code ++ ')' :: ' ' :: t)) :=
    gap?_space (by simp; decide)
  have hopen : gap? (' ' :: '(' :: (Text.ofNat code ++ ')' :: ' ' :: t)) =
      some ([' '], '(' :: (Text.ofNat code ++ ')' :: ' ' :: t)) := gap?_space (by simp; decide)
  have hcode : (Text.ofNat code ++ ')' :: ' ' :: t).takeWhile isDecimal = Text.ofNat code :=
    Text.takeWhile_append_of_head? (fun c hc => isDecimal_of_mem_ofNat hc) (by simp; decide)
  have htext : gap? (' ' :: t) = some ([' '], t) := gap?_space ht.isBlank_head
  have hno : Text.after? "Command:".toList
      ("Result".toList ++ ' ' :: '(' :: (Text.ofNat code ++ ')' :: ' ' :: t)) = none := by
    simp [Text.after?]
  have hparen (c : Char) (u : Text) : Text.after? [c] (c :: u) = some u := Text.after?_append [c] u
  rw [ entry?, timestamp?_append hstamp]
  simp only [Option.bind_eq_bind, Option.bind_some, hgap, hno, Text.after?_append, hopen, hparen,
    hcode, List.drop_left, htext]
  simp [ht.ne_nil, Nat.toDigits_ne_nil, Text.ofNat]

end

/-! ## Reading a line -/

/-- A margin of whole levels in front of a flush text tells the level. -/
theorem token?_indent {level : Nat} {core : Text} {e : Entry} (hcore : Flush core)
    (he : entry? core = some e) (number : Nat) :
    token? number (Text.copies (indentWidth * level) ' ' ++ core) = (do
      let event ← match e.code with
        | none => pure .command
        | some ds => (count ds).map .result
      return some ⟨event, level, e.timestamp, Text.trim e.text, number⟩) := by
  have hmargin : Text.margin (Text.copies (indentWidth * level) ' ' ++ core) / indentWidth =
      level := by
    rw [Text.margin, Text.takeWhile_append_of_head? Text.isBlank_of_mem_copies hcore.isBlank_head,
      List.length_replicate, Nat.mul_div_cancel_left _ (by decide)]
  rw [token?, hcore.trim_copies_append, he]
  show (do
    let event ← match e.code with
      | none => pure Event.command
      | some ds => (count ds).map Event.result
    return some (Token.mk event _ _ _ _)) = _
  rw [hmargin]

namespace Run

variable {r : Run} {o : Outcome}

theorem Printable.flush_command (h : r.Printable) :
    Flush (r.timestamp ++ ' ' :: ("Command:".toList ++ ' ' :: ' ' :: r.text)) :=
  flush_entry " Command:  ".toList h.timestamp (Text.forall_mem_of_all (by decide)) h.text

theorem Printable.flush_result (h : r.Printable) (ho : o ∈ r.outcome) :
    Flush (r.timestamp ++
      ' ' :: ("Result".toList ++ ' ' :: '(' :: (Text.ofNat o.code ++ ')' :: ' ' :: o.text))) := by
  have hwords : ∀ c ∈ " Result (".toList ++ (Text.ofNat o.code ++ ") ".toList),
      isBreak c = false := by
    have hopen : ∀ c ∈ " Result (".toList, isBreak c = false := Text.forall_mem_of_all (by decide)
    have hclose : ∀ c ∈ ") ".toList, isBreak c = false := Text.forall_mem_of_all (by decide)
    intro c hc
    rcases List.mem_append.1 hc with hc | hc
    · exact hopen c hc
    · rcases List.mem_append.1 hc with hc | hc
      · exact isBreak_eq_false_of_isDecimal (isDecimal_of_mem_ofNat hc)
      · exact hclose c hc
  simpa using flush_entry _ h.timestamp hwords (h.outcome o ho).1

/-- The line of a command is read back. -/
theorem Printable.token?_commandLine (h : r.Printable) (number : Nat) :
    token? number r.commandLine =
      .ok (some ⟨.command, r.level, r.timestamp, r.text, number⟩) := by
  rw [commandLine, indent, token?_indent h.flush_command (entry?_command h.timestamp h.text),
    h.text.trim_eq]
  rfl

/-- The line of a result is read back. -/
theorem Printable.token?_resultLine (h : r.Printable) (ho : o ∈ r.outcome) (number : Nat) :
    token? number (r.resultLine o) =
      .ok (some ⟨.result o.code, r.level, r.timestamp, o.text, number⟩) := by
  obtain ⟨htext, hcode⟩ := h.outcome o ho
  rw [resultLine, indent, token?_indent (h.flush_result ho) (entry?_result h.timestamp htext o.code),
    htext.trim_eq]
  simp only [count_ofNat hcode]
  rfl

/-- A printed line is one line. -/
theorem Printable.isBreak_eq_false (h : r.Printable) {l : Text} (hl : l ∈ r.print) :
    ∀ c ∈ l, isBreak c = false := by
  have hindent : ∀ c ∈ r.indent, isBreak c = false := by
    intro c hc
    rw [List.eq_of_mem_replicate hc]
    rfl
  obtain ⟨core, hcore, rfl⟩ : ∃ core, Flush core ∧ l = r.indent ++ core := by
    rcases List.mem_cons.1 hl with rfl | hl
    · exact ⟨_, h.flush_command, rfl⟩
    · obtain ⟨o, ho, rfl⟩ := Option.map_eq_some_iff.1 (Option.mem_toList.1 hl)
      exact ⟨_, h.flush_result ho, rfl⟩
  intro c hc
  rcases List.mem_append.1 hc with hc | hc
  · exact hindent c hc
  · exact hcore.isBreak_eq_false c hc

end Run

end Trace

end ScriptAudit
