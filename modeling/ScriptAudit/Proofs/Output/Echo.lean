import ScriptAudit.Proofs.Output.Kinds
import ScriptAudit.Proofs.Text.Keyword
import ScriptAudit.Proofs.Trace.Entry

/-!
# Commands as signs of failure

The interpreter repeats each command before it executes it. Exceptions, assertions that do not hold
and timeouts are looked for in the whole output, so that what a command says counts like what the
interpreter says of it (`Finding.echo_counts`).

* `Finding.Settled` — nothing that a text begins to tell of is still to be told behind it.
* `Finding.exceptions_append`, `Finding.asserts_append` — then what follows is searched by itself.
* `Finding.Settled.append_front` — the line of a command up to its text leaves nothing to be told.
* `Finding.Harmless` — texts that add nothing to what follows them.
-/

namespace ScriptAudit

namespace Finding

/-! ## Reading behind a keyword -/

/-- What follows a keyword that may have a colon behind it. -/
def afterColon (t : Text) : Text := (Text.after? [':'] t).getD t

/-- Whether what a keyword begins to tell is told wherever it stands in a text: behind the keyword
and the blanks there, a line feed ends the line. -/
def Told (keyword : Text) (colon : Text → Text) (t : Text) : Prop :=
  ∀ u rest, u <:+ t → Text.afterKeyword? keyword u = some rest →
    '\n' ∈ Text.trimLeft (colon rest)

/-- Whether all that a text tells of exceptions and assertions is told in the text itself. -/
structure Settled (t : Text) : Prop where
  exception : Told "Exception" afterColon t
  assert : Told "Assert" id t

instance (keyword : Text) (colon : Text → Text) (t : Text) : Decidable (Told keyword colon t) :=
  decidable_of_iff
    (∀ u ∈ t.tails, ∀ rest ∈ Text.afterKeyword? keyword u, '\n' ∈ Text.trimLeft (colon rest)) <| by
    simp only [Told, List.mem_tails, Option.mem_def]
    exact ⟨fun h u rest hu hrest => h u hu rest hrest, fun h u hu rest hrest => h u rest hu hrest⟩

instance (t : Text) : Decidable (Settled t) :=
  decidable_of_iff (Told "Exception" afterColon t ∧ Told "Assert" id t)
    ⟨fun ⟨hexception, hassert⟩ => ⟨hexception, hassert⟩, fun ⟨hexception, hassert⟩ =>
      ⟨hexception, hassert⟩⟩

variable {t u rest : Text}

theorem afterColon_cons (c : Char) (cs : Text) :
    afterColon (c :: cs) = if ':' = c then cs else c :: cs := by
  rw [afterColon, Text.after?]
  split
  · cases cs <;> rfl
  · rfl

theorem afterColon_append (h : '\n' ∈ Text.trimLeft (afterColon rest)) (s : Text) :
    afterColon (rest ++ s) = afterColon rest ++ s := by
  cases rest with
  | nil => cases h
  | cons c cs =>
    rw [List.cons_append, afterColon_cons, afterColon_cons]
    split <;> rfl

theorem afterColon_suffix (t : Text) : afterColon t <:+ t := by
  rw [afterColon]
  cases h : Text.after? [':'] t with
  | none => exact List.suffix_rfl
  | some rest => exact ⟨[':'], (Text.eq_append_of_after? h).symm⟩

/-- What is not blank up to the end of a line is not changed by what follows. -/
theorem trimLeft_append_of_newline (h : '\n' ∈ Text.trimLeft t) (s : Text) :
    Text.trimLeft (t ++ s) = Text.trimLeft t ++ s ∧
      (t ++ s).takeWhile isBlank = t.takeWhile isBlank := by
  have hnot : Text.blank t = false := by
    rw [← Bool.not_eq_true]
    intro hblank
    rw [Text.trimLeft_of_blank hblank] at h
    cases h
  have hleft : Text.trimLeft (t ++ s) = Text.trimLeft t ++ s := by
    rw [Text.trimLeft_append, if_neg (by simp [hnot])]
  refine ⟨hleft, ?_⟩
  have hwhole := List.takeWhile_append_dropWhile (p := isBlank) (l := t ++ s)
  rw [← Text.trimLeft, hleft, ← List.append_assoc] at hwhole
  have hpart := List.takeWhile_append_dropWhile (p := isBlank) (l := t)
  rw [← Text.trimLeft] at hpart
  have := List.append_cancel_right hwhole
  exact List.append_cancel_right (this.trans hpart.symm)

/-- No keyword goes on behind a text that ends in a blank. -/
theorem afterKeyword?_append_of_suffix {keyword : Text}
    (hletters : keyword.all (fun k => (foldLetter k).isAlpha) = true) {b : Char}
    (ht : t.getLast? = some b) (hb : isBlank b = true) (hu : u <:+ t) (hne : u ≠ []) (s : Text) :
    Text.afterKeyword? keyword (u ++ s) = (Text.afterKeyword? keyword u).map (· ++ s) := by
  obtain ⟨x, rfl⟩ := hu
  rw [List.getLast?_append_of_ne_nil _ hne] at ht
  exact Text.afterKeyword?_append_of_getLast?
    (Text.foldLetter_ne_of_isAlpha (List.all_eq_true.1 hletters)
      (isAlpha_foldLetter_of_isBlank hb)) ht s

/-! ## Exceptions -/

theorem detailAfter?_append (hrest : '\n' ∈ rest) (s : Text) (passed : Nat) (blanks : Text) :
    detailAfter? passed blanks (rest ++ s) = detailAfter? passed blanks rest := by
  induction blanks generalizing passed with
  | nil => rfl
  | cons b bs ih =>
    have hne : bs ++ rest ≠ [] := by
      intro hnil
      rw [(List.append_eq_nil_iff.1 hnil).2] at hrest
      cases hrest
    have hhead : (bs ++ (rest ++ s)).head? = (bs ++ rest).head? := by
      rw [← List.append_assoc, List.head?_append_of_ne_nil _ hne]
    have hline : (bs ++ (rest ++ s)).takeWhile (· ≠ '\n') = (bs ++ rest).takeWhile (· ≠ '\n') := by
      rw [← List.append_assoc]
      exact Text.takeWhile_ne_append_of_mem (List.mem_append_right bs hrest) s
    rw [detailAfter?, detailAfter?, ih, hhead, hline]

theorem exceptionDetail_eq (before : Option Char) (t : Text) : exceptionDetail before t =
    (Text.afterKeyword? "Exception" t).bind fun rest =>
      (detailAfter? 0 ((afterColon rest).takeWhile isBlank) (Text.trimLeft (afterColon rest))).bind
        fun d => some (d.1, t.length - (afterColon rest).length + d.2) := by
  simp only [Text.trimLeft, ← Text.drop_length_takeWhile]
  rfl

/-- A detail stands up to the end of its line behind some of the blanks, and does not begin with a
zero. -/
theorem exists_of_detailAfter? {passed n : Nat} {blanks detail : Text}
    (h : detailAfter? passed blanks rest = some (detail, n)) :
    ∃ gap u, blanks = gap ++ u ∧ gap ≠ [] ∧ detail = (u ++ rest).takeWhile (· ≠ '\n') ∧
      n = passed + gap.length + detail.length ∧ detail.head? ≠ some '0' := by
  induction blanks generalizing passed with
  | nil => cases h
  | cons b bs ih =>
    rw [detailAfter?] at h
    cases hdeeper : detailAfter? (passed + 1) bs rest with
    | some find =>
      rw [hdeeper] at h
      cases h
      obtain ⟨gap, u, rfl, -, hdetail, hn, hzero⟩ := ih hdeeper
      refine ⟨b :: gap, u, rfl, List.cons_ne_nil b gap, hdetail, ?_, hzero⟩
      rw [List.length_cons]
      omega
    | none =>
      rw [hdeeper] at h
      change (if (bs ++ rest).head?.all (fun c => c == '0' || c == '\n') = true then none
        else some _) = _ at h
      split at h
      · cases h
      · next hhead =>
        cases h
        refine ⟨[b], bs, rfl, List.cons_ne_nil b [], rfl, rfl, fun hzero => hhead ?_⟩
        obtain ⟨detail, hdetail⟩ := List.head?_eq_some_iff.1 hzero
        obtain ⟨more, hmore⟩ := List.takeWhile_prefix (· ≠ '\n') (l := bs ++ rest)
        rw [← hmore, hdetail]
        rfl

theorem length_detailAfter?_le {passed n : Nat} {blanks detail : Text}
    (h : detailAfter? passed blanks rest = some (detail, n)) :
    n ≤ passed + blanks.length + rest.length := by
  obtain ⟨gap, u, rfl, -, rfl, rfl, -⟩ := exists_of_detailAfter? h
  have := (List.takeWhile_prefix (· ≠ '\n') (l := u ++ rest)).length_le
  rw [List.length_append] at this ⊢
  omega

/-- A detail uses up no more than there is. -/
theorem exceptionDetail_le {before : Option Char} {detail : Text} {n : Nat}
    (h : exceptionDetail before t = some (detail, n)) : n ≤ t.length := by
  rw [exceptionDetail_eq] at h
  obtain ⟨rest, hrest, h⟩ := Option.bind_eq_some_iff.1 h
  obtain ⟨d, hd, h⟩ := Option.bind_eq_some_iff.1 h
  cases h
  obtain ⟨word, rfl, -⟩ := Text.afterKeyword?_eq_some.1 hrest
  have hsize := length_detailAfter?_le hd
  have hsplit := Text.length_takeWhile_add isBlank (afterColon rest)
  have hcolon := (afterColon_suffix rest).length_le
  rw [← Text.trimLeft] at hsplit
  rw [List.length_append]
  omega

/-- What a settled text tells of exceptions is not changed by what follows. -/
theorem Settled.exceptionDetail_endsIn (h : Settled t) {b : Char} (ht : t.getLast? = some b)
    (hb : isBlank b = true) (s : Text) : exceptionDetail.EndsIn t s := by
  intro before u hu hne
  rw [exceptionDetail_eq, exceptionDetail_eq,
    afterKeyword?_append_of_suffix (by decide) ht hb hu hne]
  cases hrest : Text.afterKeyword? "Exception" u with
  | none => rfl
  | some rest =>
    have hbreak := h.exception u rest hu hrest
    obtain ⟨hleft, hblanks⟩ := trimLeft_append_of_newline hbreak s
    rw [Option.map_some, Option.bind_some, Option.bind_some, afterColon_append hbreak, hleft,
      hblanks, detailAfter?_append hbreak, List.length_append, List.length_append,
      Nat.add_sub_add_right]

/-- Behind a settled text exceptions are found as if nothing stood there. -/
theorem exceptions_append (h : Settled t) {b : Char} (ht : t.getLast? = some b)
    (hb : isBlank b = true) (s : Text) : exceptions (t ++ s) = exceptions t ++ exceptions s := by
  rw [exceptions, (h.exceptionDetail_endsIn ht hb s).occurrences_append
    fun _ _ _ _ => exceptionDetail_le, Recogniser.collect_eq_occurrences fun _ _ _ => rfl,
    List.map_append, List.filterMap_append]
  rfl

/-! ## Assertions -/

theorem throughFailure?_prefix {detail : Text} (h : throughFailure? t = some detail) :
    detail <+: t := by
  induction t generalizing detail with
  | nil => cases h
  | cons c cs ih =>
    rw [throughFailure?] at h
    split at h
    · next hrest =>
      cases h
      exact List.cons_prefix_cons.2 ⟨rfl, ih hrest⟩
    · obtain ⟨w, -, hw⟩ := List.exists_of_findSome?_eq_some h
      obtain ⟨rest, -, rfl⟩ := Option.map_eq_some_iff.1 hw
      exact List.take_prefix _ _

theorem failedAssert_eq (before : Option Char) (t : Text) : failedAssert before t =
    (Text.afterKeyword? "Assert" t).bind fun rest =>
      if (rest.takeWhile isBlank).isEmpty then none
      else (throughFailure? ((Text.trimLeft rest).takeWhile (· ≠ '\n'))).bind fun detail =>
        some (t.take (6 + (rest.takeWhile isBlank).length + detail.length),
          6 + (rest.takeWhile isBlank).length + detail.length) := by
  simp only [Text.trimLeft, ← Text.drop_length_takeWhile]
  rw [failedAssert]
  cases Text.afterKeyword? "Assert" t with
  | none => rfl
  | some rest =>
    simp only [Option.bind_eq_bind, Option.bind_some]
    cases (rest.takeWhile isBlank).isEmpty
    · rfl
    · rfl

/-- An assertion uses up no more than there is. -/
theorem failedAssert_le {before : Option Char} {find : Text} {n : Nat}
    (h : failedAssert before t = some (find, n)) : n ≤ t.length := by
  rw [failedAssert_eq] at h
  obtain ⟨rest, hrest, h⟩ := Option.bind_eq_some_iff.1 h
  split at h
  · cases h
  obtain ⟨detail, hdetail, h⟩ := Option.bind_eq_some_iff.1 h
  cases h
  obtain ⟨word, rfl, hword⟩ := Text.afterKeyword?_eq_some.1 hrest
  have hsix : word.length = 6 := by simpa using congrArg List.length hword
  have hline := (( throughFailure?_prefix hdetail).trans (List.takeWhile_prefix _)).length_le
  have hsplit := Text.length_takeWhile_add isBlank rest
  rw [← Text.trimLeft] at hsplit
  rw [List.length_append]
  omega

/-- What a settled text tells of assertions is not changed by what follows. -/
theorem Settled.failedAssert_endsIn (h : Settled t) {b : Char} (ht : t.getLast? = some b)
    (hb : isBlank b = true) (s : Text) : failedAssert.EndsIn t s := by
  intro before u hu hne
  have hle : ∀ find n, failedAssert before u = some (find, n) → n ≤ u.length :=
    fun _ _ => failedAssert_le
  rw [failedAssert_eq] at hle
  rw [failedAssert_eq, failedAssert_eq, afterKeyword?_append_of_suffix (by decide) ht hb hu hne]
  cases hrest : Text.afterKeyword? "Assert" u with
  | none => rfl
  | some rest =>
    have hbreak : '\n' ∈ Text.trimLeft rest := h.assert u rest hu hrest
    obtain ⟨hleft, hblanks⟩ := trimLeft_append_of_newline hbreak s
    have hline := Text.takeWhile_ne_append_of_mem hbreak s
    rw [hrest, Option.bind_some] at hle
    rw [Option.map_some, Option.bind_some, Option.bind_some, hblanks, hleft, hline]
    split
    · rfl
    · next hgap =>
      rw [if_neg hgap] at hle
      cases hdetail : throughFailure? ((Text.trimLeft rest).takeWhile (· ≠ '\n')) with
      | none => rfl
      | some detail =>
        rw [hdetail] at hle
        rw [Option.bind_some, Option.bind_some, List.take_append_of_le_length (hle _ _ rfl)]

/-- Behind a settled text assertions are found as if nothing stood there. -/
theorem asserts_append (h : Settled t) {b : Char} (ht : t.getLast? = some b)
    (hb : isBlank b = true) (s : Text) : asserts (t ++ s) = asserts t ++ asserts s := by
  rw [asserts, (h.failedAssert_endsIn ht hb s).occurrences_append
    fun _ _ _ _ => failedAssert_le, Recogniser.collect_eq_occurrences fun _ _ _ => rfl,
    List.map_append]
  rfl

/-! ## Timeouts -/

/-- Whether a text tells of a timeout. -/
def timesOut (t : Text) : Bool := Text.contains "timeout" t || Text.contains "Timeout" t

theorem timeouts_eq_iff {raw raw' : Text} :
    timeouts raw = timeouts raw' ↔ timesOut raw = timesOut raw' := by
  have htimeouts (t : Text) : timeouts t = if timesOut t then _ else [] := rfl
  rw [htimeouts, htimeouts]
  cases timesOut raw <;> cases timesOut raw' <;> simp

theorem timesOut_iff : timesOut t = true ↔ "timeout".toList <:+: t ∨ "Timeout".toList <:+: t := by
  rw [timesOut, Bool.or_eq_true, Text.contains_iff_infix, Text.contains_iff_infix]

/-- The word does not reach over a blank. -/
theorem timesOut_append_cons {b : Char} (hb : isBlank b = true) (t s : Text) :
    timesOut (t ++ b :: s) = (timesOut t || timesOut s) := by
  have hnot {needle : Text} (h : ∀ c ∈ needle, isBlank c = false) : b ∉ needle := fun hmem => by
    rw [h b hmem] at hb
    cases hb
  have hsmall := hnot (Text.forall_mem_of_all (t := "timeout".toList) (by decide))
  have hlarge := hnot (Text.forall_mem_of_all (t := "Timeout".toList) (by decide))
  rw [Bool.eq_iff_iff, Bool.or_eq_true, timesOut_iff, timesOut_iff, timesOut_iff,
    Text.infix_append_cons_iff hsmall, Text.infix_append_cons_iff hlarge]
  exact or_or_or_comm

theorem timesOut_append_of_getLast? {b : Char} (ht : t.getLast? = some b) (hb : isBlank b = true)
    (s : Text) : timesOut (t ++ s) = (timesOut t || timesOut s) := by
  obtain ⟨u, rfl⟩ := List.getLast?_eq_some_iff.1 ht
  have hempty : timesOut [] = false := rfl
  rw [List.append_assoc, List.singleton_append, timesOut_append_cons hb, timesOut_append_cons hb,
    hempty, Bool.or_false]

/-! ## In front of a command -/

section

variable {front : Text} (hfront : ∀ c ∈ front, Trace.IsFront c)
include hfront

/-- There is no keyword in front of the text of a command, unless all of its letters are in
`Command`. -/
theorem afterKeyword?_of_isFront {keyword : Text} {k : Char} (hk : k ∈ keyword)
    (hletter : (foldLetter k).isAlpha = true)
    (hcommand : "-:Command".toList.all (fun c => decide (foldLetter c ≠ foldLetter k)) = true) :
    Text.afterKeyword? keyword front = none := by
  refine Option.eq_none_iff_forall_ne_some.2 fun rest hrest => ?_
  obtain ⟨word, rfl, hword⟩ := Text.afterKeyword?_eq_some.1 hrest
  obtain ⟨c, hc, hfold⟩ := List.mem_map.1 (hword.symm ▸ List.mem_map_of_mem hk)
  rcases hfront c (List.mem_append_left rest hc) with hdigit | hblank | hmem
  · rw [← hfold, isAlpha_foldLetter_of_isDecimal hdigit] at hletter
    cases hletter
  · rw [← hfold, isAlpha_foldLetter_of_isBlank hblank] at hletter
    cases hletter
  · exact Text.forall_mem_of_all hcommand c hmem hfold

theorem timesOut_of_isFront : timesOut front = false := by
  have hnot : 't' ∉ front := by
    intro hmem
    have := hfront 't' hmem
    revert this
    unfold Trace.IsFront
    decide
  rw [← Bool.not_eq_true, timesOut_iff]
  rintro (h | h) <;> exact hnot (h.subset (by decide))

/-- The line of a command does not go on with what the lines above tell. -/
theorem Told.append_front {keyword : Text} {colon : Text → Text} (h : Told keyword colon t)
    (hcolon : ∀ rest s, '\n' ∈ Text.trimLeft (colon rest) → colon (rest ++ s) = colon rest ++ s)
    (hletters : keyword.all (fun k => (foldLetter k).isAlpha) = true)
    (ht : ∀ b ∈ t.getLast?, isBlank b = true) {k : Char} (hk : k ∈ keyword)
    (hcommand : "-:Command".toList.all (fun c => decide (foldLetter c ≠ foldLetter k)) = true) :
    Told keyword colon (t ++ front) := by
  have hnone {u : Text} (hu : u <:+ front) : Text.afterKeyword? keyword u = none :=
    afterKeyword?_of_isFront (fun c hc => hfront c (hu.subset hc)) hk
      (List.all_eq_true.1 hletters k hk) hcommand
  intro u rest hu hrest
  rcases List.suffix_or_suffix_of_suffix hu (List.suffix_append t front) with hu' | ⟨v, rfl⟩
  · rw [hnone hu'] at hrest
    cases hrest
  · have hv : v <:+ t := by
      obtain ⟨x, hx⟩ := hu
      rw [← List.append_assoc] at hx
      exact ⟨x, List.append_cancel_right hx⟩
    by_cases hnil : v = []
    · rw [hnil, List.nil_append, hnone List.suffix_rfl] at hrest
      cases hrest
    obtain ⟨b, hb⟩ := Option.isSome_iff_exists.1 (List.getLast?_isSome.2 fun hnil' : t = [] =>
      hnil (List.suffix_nil.1 (hnil' ▸ hv)))
    rw [afterKeyword?_append_of_suffix hletters hb (ht b hb) hv hnil] at hrest
    obtain ⟨told, htold, rfl⟩ := Option.map_eq_some_iff.1 hrest
    have hbreak := h v told hv htold
    rw [hcolon told front hbreak, (trimLeft_append_of_newline hbreak front).1]
    exact List.mem_append_left front hbreak

theorem Settled.append_front (h : Settled t) (ht : ∀ b ∈ t.getLast?, isBlank b = true) :
    Settled (t ++ front) where
  exception := h.exception.append_front hfront (fun _ s hbreak => afterColon_append hbreak s)
    (by decide) ht (k := 'x') (by decide) (by decide)
  assert := h.assert.append_front hfront (fun _ _ _ => rfl)
    (by decide) ht (k := 's') (by decide) (by decide)

end

/-! ## Behind a command -/

/-- A text without the words that errors are looked for by. -/
structure Harmless (t : Text) : Prop where
  exception : ∀ u, u <:+ t → Text.afterKeyword? "Exception" u = none
  assert : ∀ u, u <:+ t → Text.afterKeyword? "Assert" u = none
  timeout : timesOut t = false

instance (t : Text) : Decidable (Harmless t) :=
  decidable_of_iff ((∀ u ∈ t.tails, (Text.afterKeyword? "Exception" u).isNone = true) ∧
      (∀ u ∈ t.tails, (Text.afterKeyword? "Assert" u).isNone = true) ∧ timesOut t = false) <| by
    simp only [List.mem_tails, Option.isNone_iff_eq_none]
    exact ⟨fun ⟨hexception, hassert, htimeout⟩ => ⟨hexception, hassert, htimeout⟩,
      fun ⟨hexception, hassert, htimeout⟩ => ⟨hexception, hassert, htimeout⟩⟩

section

variable {s : Text} (hs : ∀ c ∈ s.head?, isBlank c = true)
include hs

/-- A harmless text adds no exception to those that are told behind it. -/
theorem Harmless.exceptions_append (h : Harmless t) : exceptions (t ++ s) = exceptions s := by
  have hpass : exceptionDetail.Passes t s := fun before w hw _ => by
    rw [exceptionDetail_eq, Text.afterKeyword?_append_of_head? hs (by decide) (h.exception w hw)]
    rfl
  rw [exceptions, Recogniser.occurrences, hpass.collect_append,
    Recogniser.collect_eq_occurrences fun _ _ _ => rfl]
  rfl

theorem Harmless.asserts_append (h : Harmless t) : asserts (t ++ s) = asserts s := by
  have hpass : failedAssert.Passes t s := fun before w hw _ => by
    rw [failedAssert_eq, Text.afterKeyword?_append_of_head? hs (by decide) (h.assert w hw)]
    rfl
  rw [asserts, Recogniser.occurrences, hpass.collect_append,
    Recogniser.collect_eq_occurrences fun _ _ _ => rfl]
  rfl

theorem Harmless.timesOut_append (h : Harmless t) : timesOut (t ++ s) = timesOut s := by
  cases s with
  | nil => rw [List.append_nil, h.timeout]; rfl
  | cons c s =>
    have hempty : timesOut (c :: s) = timesOut ([] ++ c :: s) := rfl
    rw [hempty, timesOut_append_cons (hs c rfl), timesOut_append_cons (hs c rfl), h.timeout]
    rfl

end

/-! ## The line of a command -/

section

variable {before front text after stamp : Text}

/-- What stands in front of the text of a command is searched by itself, if nothing that the lines
above tell of is still to be told. -/
theorem signs_append (hsettled : Settled before) (hbefore : ∀ c ∈ before.getLast?, isBreak c = true)
    (hline : Trace.entry? (Text.trim (front ++ text)) = some ⟨stamp, none, text⟩) (s : Text) :
    exceptions (before ++ front ++ s) = exceptions (before ++ front) ++ exceptions s ∧
      asserts (before ++ front ++ s) = asserts (before ++ front) ++ asserts s ∧
        timesOut (before ++ front ++ s) = (timesOut before || timesOut s) := by
  obtain ⟨hfront, b, hlast, hb⟩ := Trace.isFront_of_entry? hline
  have hblank : ∀ c ∈ before.getLast?, isBlank c = true :=
    fun c hc => isBlank_of_isBreak (hbefore c hc)
  have hall := hsettled.append_front hfront hblank
  have hlast' : (before ++ front).getLast? = some b := by
    rw [List.getLast?_append, hlast, Option.some_or]
  refine ⟨exceptions_append hall hlast' hb s, asserts_append hall hlast' hb s, ?_⟩
  rw [timesOut_append_of_getLast? hlast' hb]
  congr 1
  cases hend : before.getLast? with
  | none =>
    rw [List.getLast?_eq_none_iff.1 hend]
    exact timesOut_of_isFront hfront
  | some c =>
    rw [timesOut_append_of_getLast? hend (hblank c hend), timesOut_of_isFront hfront,
      Bool.or_false]

/-- What a command says is searched for signs of failure like the rest of the output. Another text
on the line of the command leaves the assertions that do not hold, the exceptions and the timeout
as they are exactly if it shows the same ones together with what follows, or if there is a timeout
above anyway. Texts without the words that are looked for all show the same. -/
theorem echo_counts (hsettled : Settled before)
    (hbefore : ∀ c ∈ before.getLast?, isBreak c = true)
    (hline : Trace.entry? (Text.trim (front ++ text)) = some ⟨stamp, none, text⟩)
    (hafter : ∀ c ∈ after.head?, isBreak c = true) (text' : Text) (runs runs' : List Trace.Run) :
    ∀ k ∈ [ErrorKind.assertFailed, .exception, .timeout],
      ((errors (before ++ front ++ (text ++ after)) runs).filter (·.kind = k) =
          (errors (before ++ front ++ (text' ++ after)) runs').filter (·.kind = k) ↔
        k = .timeout ∧ timesOut before = true ∨
          (errors (text ++ after) runs).filter (·.kind = k) =
            (errors (text' ++ after) runs').filter (·.kind = k)) ∧
      (Harmless text → Harmless text' →
        (errors (before ++ front ++ (text ++ after)) runs).filter (·.kind = k) =
          (errors (before ++ front ++ (text' ++ after)) runs').filter (·.kind = k)) := by
  have hsplit := signs_append hsettled hbefore hline
  have hblank : ∀ c ∈ after.head?, isBlank c = true :=
    fun c hc => isBlank_of_isBreak (hafter c hc)
  simp only [filter_kind_errors]
  intro k hk
  suffices hkind : (ofKind (before ++ front ++ (text ++ after)) runs k =
        ofKind (before ++ front ++ (text' ++ after)) runs' k ↔
      k = .timeout ∧ timesOut before = true ∨
        ofKind (text ++ after) runs k = ofKind (text' ++ after) runs' k) ∧
      (Harmless text → Harmless text' →
        ofKind (text ++ after) runs k = ofKind (text' ++ after) runs' k) from
    ⟨hkind.1, fun h h' => hkind.1.2 (Or.inr (hkind.2 h h'))⟩
  simp only [List.mem_cons, List.not_mem_nil, or_false] at hk
  rcases hk with rfl | rfl | rfl
  · constructor
    · simp only [ofKind, (hsplit _).2.1, List.append_right_inj, reduceCtorEq, false_and, false_or]
    · exact fun h h' => (h.asserts_append hblank).trans (h'.asserts_append hblank).symm
  · constructor
    · simp only [ofKind, (hsplit _).1, List.append_right_inj, reduceCtorEq, false_and, false_or]
    · exact fun h h' => (h.exceptions_append hblank).trans (h'.exceptions_append hblank).symm
  · constructor
    · simp only [ofKind, timeouts_eq_iff, (hsplit _).2.2, true_and]
      cases timesOut before <;> simp
    · exact fun h h' => timeouts_eq_iff.2
        ((h.timesOut_append hblank).trans (h'.timesOut_append hblank).symm)

end

/-- An assertion that failed earlier on is reported whichever harmless command follows. -/
theorem echo_counts_call :
    [ErrorKind.assertFailed, .exception, .timeout].map (fun k =>
        (errors ("2026-01-20 10:15:33 Assert failed: customer is null\n".toList ++
          "   2026-01-20 10:15:34 Command:  ".toList ++
            ("Get Customers".toList ++ "\nTest Report\n".toList)) []).filter (·.kind = k)) =
      [ErrorKind.assertFailed, .exception, .timeout].map (fun k =>
        (errors ("2026-01-20 10:15:33 Assert failed: customer is null\n".toList ++
          "   2026-01-20 10:15:34 Command:  ".toList ++
            ("Call util/Close.mkd".toList ++ "\nTest Report\n".toList)) []).filter
              (·.kind = k)) := by
  have hline : Trace.entry? (Text.trim ("   2026-01-20 10:15:34 Command:  ".toList ++
      "Get Customers".toList)) =
        some ⟨"2026-01-20 10:15:34".toList, none, "Get Customers".toList⟩ := by rfl
  have hsettled : Settled "2026-01-20 10:15:33 Assert failed: customer is null\n".toList := by
    decide +kernel
  have hbefore : ∀ c ∈ "2026-01-20 10:15:33 Assert failed: customer is null\n".toList.getLast?,
      isBreak c = true := by
    rintro c ⟨⟩
    rfl
  have hafter : ∀ c ∈ "\nTest Report\n".toList.head?, isBreak c = true := by
    rintro c ⟨⟩
    rfl
  exact List.map_congr_left fun k hk => (echo_counts hsettled hbefore hline hafter _ [] [] k hk).2
    (by decide +kernel) (by decide +kernel)

/-- An assertion that compares with `false` is reported as one that does not hold where it is only
repeated and passes, while another command in its place is not. -/
theorem errors_of_echoed_assert :
    Trace.entry? "2026-01-20 10:00:00 Command:  Assert \x7b$x.Active\x7d == false".toList =
        some ⟨"2026-01-20 10:00:00".toList, none, "Assert \x7b$x.Active\x7d == false".toList⟩ ∧
      Trace.entry? "2026-01-20 10:00:00 Command:  Call util/Close.mkd".toList =
        some ⟨"2026-01-20 10:00:00".toList, none, "Call util/Close.mkd".toList⟩ ∧
      (errors ("2026-01-20 10:00:00 Command:  Assert \x7b$x.Active\x7d == false\n".toList ++
        "2026-01-20 10:00:00 Assert passed\nTest Report\n".toList) []).map (fun f =>
          (f.kind, f.message)) = [(.assertFailed, "Assert \x7b$x.Active\x7d == false".toList)] ∧
      (errors ("2026-01-20 10:00:00 Command:  Call util/Close.mkd\n".toList ++
        "2026-01-20 10:00:00 Assert passed\nTest Report\n".toList) []).map (fun f =>
          (f.kind, f.message)) = [] := by
  refine ⟨rfl, rfl, ?_, ?_⟩ <;> decide +kernel

/-- Behind an exception whose text is still to come the line of a command is that text. -/
example : (exceptions "Exception:\n2026-01-20 10:00:00 Command:  Call util/Close.mkd\n".toList).map
    Finding.message = ["2026-01-20 10:00:00 Command:  Call util/Close.mkd".toList] := by
  decide +kernel

end Finding

end ScriptAudit
