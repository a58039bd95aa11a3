import ScriptAudit.Output.Remedy
import ScriptAudit.Proofs.Output.Figures
import ScriptAudit.Proofs.Output.Kinds
import ScriptAudit.Proofs.Output.Reading
import ScriptAudit.Proofs.Redaction.Secrets
import ScriptAudit.Proofs.Text.Lines

/-!
# Verdicts

The status of a test is that of the first line that holds nothing but `Passed` or `Failed`
(`Report.first?_statusLine`). Without such a line the word `Passed` anywhere in the output will do,
whether there is a report or not. `Result.success_iff_says_passed` says of which outputs a result is
a success, and which of them lack a report all the same.
-/

namespace ScriptAudit

variable {raw : Text} {r : Result}

/-! ## The status of a line -/

/-- The status that a line tells, if the line holds nothing else. -/
def Status.ofLine? (line : Text) : Option Status :=
  [Status.passed, Status.failed].find? (·.name == Text.trim line)

namespace Report

/-- The given status, if it stands behind the left margin and its line holds nothing else. -/
def leading? (t : Text) (s : Status) : Option (Status × Nat) :=
  match Text.after? s.name (Text.trimLeft t) with
  | some rest => if endsLine rest then some (s, 1) else none
  | none => none

/-- The status behind the left margin, if its line holds nothing else. -/
def leadingStatus? (t : Text) : Option (Status × Nat) :=
  [Status.passed, Status.failed].findSome? (leading? t)

theorem statusLine_eq (before : Option Char) (t : Text) :
    statusLine before t = if lineStarts before then leadingStatus? t else none := by
  rw [statusLine]
  cases lineStarts before <;> rfl

theorem endsLine_of_notMem {t : Text} (h : '\n' ∉ t) : endsLine t = Text.blank t := by
  have hbreak : (t.takeWhile isBlank).elem '\n' = false := by
    rw [List.elem_eq_mem, decide_eq_false_iff_not]
    exact fun hmem => h ((List.takeWhile_sublist _).subset hmem)
  rw [endsLine, hbreak, Bool.or_false, Text.blank, Bool.eq_iff_iff, decide_eq_true_iff,
    List.all_eq_true, ← List.takeWhile_eq_self_iff]
  exact ⟨(List.takeWhile_prefix isBlank).eq_of_length, congrArg List.length⟩

/-- On a line without an end a status is told by the whole line. -/
theorem leadingStatus?_eq_ofLine? {l : Text} (hl : '\n' ∉ l) :
    leadingStatus? l = (Status.ofLine? l).map (·, 1) := by
  have hstatus (s : Status) :
      leading? l s = if s.name == Text.trim l then some (s, 1) else none := by
    rw [leading?]
    have hlast : s.name.getLast?.all (!isBlank ·) = true := by cases s <;> decide
    have hname : s.name ≠ [] ∧ ∀ c ∈ s.name.getLast?, isBlank c = false :=
      ⟨by cases s <;> decide, fun c hc => by simpa [Option.mem_def.1 hc] using hlast⟩
    have hiff : (s.name == Text.trim l) = true ↔
        ∃ rest, Text.trimLeft l = s.name ++ rest ∧ Text.blank rest = true := by
      rw [beq_iff_eq, eq_comm]
      exact Text.trim_eq_iff hname.1 hname.2
    cases hafter : Text.after? s.name (Text.trimLeft l) with
    | none =>
      rw [if_neg]
      rw [hiff]
      rintro ⟨rest, hrest, -⟩
      rw [hrest, Text.after?_append] at hafter
      cases hafter
    | some rest =>
      have hrest := Text.eq_append_of_after? hafter
      have hline : '\n' ∉ rest := fun hmem => hl <| (List.dropWhile_sublist isBlank).subset <| by
        rw [← Text.trimLeft, hrest]
        exact List.mem_append_right _ hmem
      have hblank : (s.name == Text.trim l) = Text.blank rest := by
        rw [Bool.eq_iff_iff, hiff]
        constructor
        · rintro ⟨rest', hrest', h⟩
          rwa [List.append_cancel_left (hrest.symm.trans hrest')]
        · exact fun h => ⟨rest, hrest, h⟩
      rw [hblank, ← endsLine_of_notMem hline]
  simp only [leadingStatus?, hstatus, Status.ofLine?, List.findSome?_cons, List.findSome?_nil,
    List.find?_cons, List.find?_nil]
  cases Status.passed.name == Text.trim l <;> cases Status.failed.name == Text.trim l <;> rfl

/-- A blank line is passed over. -/
theorem leadingStatus?_append_of_blank {l : Text} (hl : Text.blank l = true) (s : Text) :
    leadingStatus? (l ++ '\n' :: s) = leadingStatus? s := by
  have hleft : Text.trimLeft (l ++ '\n' :: s) = Text.trimLeft s := by
    rw [Text.trimLeft_append, if_pos hl]
    rfl
  rw [leadingStatus?, leadingStatus?]
  congr 1
  funext status
  rw [leading?, leading?, hleft]

/-- A line that is not blank tells its status by itself. -/
theorem leadingStatus?_append_of_not_blank {l : Text} (hl : Text.blank l = false) (s : Text) :
    leadingStatus? (l ++ '\n' :: s) = leadingStatus? l := by
  rw [leadingStatus?, leadingStatus?]
  congr 1
  funext status
  have hname : '\n' ∉ status.name := by cases status <;> decide
  rw [leading?, leading?, Text.trimLeft_append, if_neg (by simp [hl]),
    Text.after?_append_cons hname]
  cases Text.after? status.name (Text.trimLeft l) with
  | none => rfl
  | some rest => simp only [Option.map_some, endsLine_append]

theorem leadingStatus?_of_blank {t : Text} (ht : Text.blank t = true) :
    leadingStatus? t = none := by
  have hnone (s : Status) (hs : s.name ≠ []) : leading? t s = none := by
    rw [leading?, Text.trimLeft_of_blank ht]
    cases hname : s.name with
    | nil => exact absurd hname hs
    | cons => rfl
  simp only [leadingStatus?, List.findSome?_cons, hnone .passed (by decide),
    hnone .failed (by decide), List.findSome?_nil]

/-- What leads a line is found at its beginning. -/
theorem search_statusLine_of_leading {before : Option Char} (hbefore : lineStarts before = true)
    {t : Text} {find : Status × Nat} (h : leadingStatus? t = some find) :
    statusLine.search before t = some find.1 := by
  cases t with
  | nil => cases h
  | cons c cs => rw [Recogniser.search, statusLine_eq, if_pos hbefore, h]

/-- Within a line no status line begins. -/
theorem search_statusLine_within {c : Char} (hc : c ≠ '\n') {l : Text} (hl : '\n' ∉ l) (s : Text) :
    statusLine.search (some c) (l ++ s) = statusLine.search ((c :: l).getLast?) s := by
  induction l generalizing c with
  | nil => rfl
  | cons d l ih =>
    rw [List.mem_cons, not_or] at hl
    rw [List.cons_append, Recogniser.search, statusLine_eq, if_neg (by simpa [lineStarts] using hc),
      ih (Ne.symm hl.1) hl.2, List.getLast?_cons_cons]

theorem search_statusLine {before : Option Char} (hbefore : lineStarts before = true) {l : Text}
    (hl : '\n' ∉ l) : statusLine.search before l = Status.ofLine? l := by
  cases hlead : leadingStatus? l with
  | some find =>
    rw [search_statusLine_of_leading hbefore hlead]
    rw [leadingStatus?_eq_ofLine? hl] at hlead
    cases hstatus : Status.ofLine? l with
    | none => rw [hstatus] at hlead; cases hlead
    | some s => rw [hstatus] at hlead; cases hlead; rfl
  | none =>
    have hstatus : Status.ofLine? l = none := by
      rw [leadingStatus?_eq_ofLine? hl] at hlead
      exact Option.map_eq_none_iff.1 hlead
    rw [hstatus]
    cases l with
    | nil => rfl
    | cons c l =>
      rw [List.mem_cons, not_or] at hl
      rw [Recogniser.search, statusLine_eq, if_pos hbefore, hlead]
      have := search_statusLine_within (Ne.symm hl.1) hl.2 []
      rwa [List.append_nil] at this

/-- Where no status leads, the search goes on at the next line. -/
theorem search_statusLine_of_none (before : Option Char) {l s : Text} (hl : '\n' ∉ l)
    (h : leadingStatus? (l ++ '\n' :: s) = none) :
    statusLine.search before (l ++ '\n' :: s) = statusLine.search (some '\n') s := by
  have hnone : statusLine before (l ++ '\n' :: s) = none := by
    rw [statusLine_eq, h, ite_self]
  cases l with
  | nil =>
    rw [List.nil_append] at hnone ⊢
    rw [Recogniser.search, hnone]
  | cons c l =>
    rw [List.mem_cons, not_or] at hl
    rw [List.cons_append] at hnone ⊢
    rw [Recogniser.search, hnone]
    show statusLine.search (some c) (l ++ '\n' :: s) = _
    obtain ⟨d, hd⟩ : ∃ d, (c :: l).getLast? = some d :=
      Option.isSome_iff_exists.1 (by simp)
    have hne : d ≠ '\n' := by
      rintro rfl
      rcases List.mem_cons.1 (List.mem_of_getLast? hd) with heq | hmem
      · exact hl.1 heq
      · exact hl.2 hmem
    rw [search_statusLine_within (Ne.symm hl.1) hl.2, hd, Recogniser.search, statusLine_eq,
      if_neg (by simpa [lineStarts] using hne)]

/-- A line tells the status, or else what follows it does. -/
theorem search_statusLine_append {before : Option Char} (hbefore : lineStarts before = true)
    {l : Text} (hl : '\n' ∉ l) (s : Text) :
    statusLine.search before (l ++ '\n' :: s) =
      (Status.ofLine? l).or (statusLine.search (some '\n') s) := by
  have hline := leadingStatus?_eq_ofLine? hl
  cases hlead : leadingStatus? (l ++ '\n' :: s) with
  | none =>
    rw [search_statusLine_of_none before hl hlead]
    cases hstatus : Status.ofLine? l with
    | none => rfl
    | some status =>
      -- a line that tells a status is not blank
      cases hblank : Text.blank l with
      | true => rw [leadingStatus?_of_blank hblank, hstatus] at hline; cases hline
      | false =>
        rw [leadingStatus?_append_of_not_blank hblank, hline, hstatus] at hlead
        cases hlead
  | some find =>
    rw [search_statusLine_of_leading hbefore hlead]
    cases hblank : Text.blank l with
    | true =>
      rw [leadingStatus?_of_blank hblank] at hline
      rw [leadingStatus?_append_of_blank hblank] at hlead
      rw [Option.map_eq_none_iff.1 hline.symm, Option.none_or,
        search_statusLine_of_leading rfl hlead]
    | false =>
      rw [leadingStatus?_append_of_not_blank hblank, hline] at hlead
      obtain ⟨status, hstatus, rfl⟩ := Option.map_eq_some_iff.1 hlead
      rw [hstatus]
      rfl

/-- The first line that holds nothing but a status is the one that is found. -/
theorem first?_statusLine (raw : Text) :
    statusLine.first? raw = (Text.splitAt '\n' raw).findSome? Status.ofLine? := by
  suffices h : ∀ before, lineStarts before = true →
      statusLine.search before raw = (Text.splitAt '\n' raw).findSome? Status.ofLine? from
    h none rfl
  induction hlength : raw.length using Nat.strong_induction_on generalizing raw with
  | _ length ih =>
    subst hlength
    intro before hbefore
    by_cases hline : '\n' ∈ raw
    · obtain ⟨l, s, rfl, hl⟩ := List.eq_append_cons_of_mem hline
      have hlt : s.length < (l ++ '\n' :: s).length := by
        rw [List.length_append, List.length_cons]
        omega
      rw [search_statusLine_append hbefore hl, Text.splitAt_append_sep hl, List.findSome?_cons,
        ih s.length hlt s rfl (some '\n') rfl]
      cases Status.ofLine? l <;> rfl
    · rw [search_statusLine hbefore hline, Text.splitAt_of_notMem hline, List.findSome?_cons]
      cases Status.ofLine? raw <;> rfl

/-! ## Outputs of success -/

/-- Whether an output says that the test passed: its first line that holds nothing but a status
says so, or there is no such line and the word stands anywhere. -/
def SaysPassed (raw : Text) : Prop :=
  (Text.splitAt '\n' raw).findSome? Status.ofLine? = some .passed ∨
    (Text.splitAt '\n' raw).findSome? Status.ofLine? = none ∧ Text.contains "Passed" raw = true

theorem statusOf_eq_passed_iff : statusOf raw = .passed ↔ SaysPassed raw := by
  rw [SaysPassed, ← first?_statusLine, statusOf]
  cases statusLine.first? raw with
  | some s => simp
  | none =>
    show (if Text.contains "Passed" raw = true then _ else _) = _ ↔ _
    cases Text.contains "Passed" raw with
    | true => simp
    | false =>
      rw [if_neg Bool.false_ne_true]
      split <;> simp

/-- Only two statuses are told by a line. -/
theorem statusLine_ne_error (raw : Text) : statusLine.first? raw ≠ some .error := by
  rw [first?_statusLine]
  intro h
  obtain ⟨l, -, hl⟩ := List.exists_of_findSome?_eq_some h
  have hmem := List.mem_of_find?_eq_some hl
  simp at hmem

/-- An output that says so holds the word. -/
theorem SaysPassed.contains (h : SaysPassed raw) : Text.contains "Passed" raw = true := by
  rcases h with h | ⟨_, h⟩
  · rw [← first?_statusLine] at h
    obtain ⟨before, u, n, hu, hfound⟩ := Recogniser.exists_of_search h
    have hlead : leadingStatus? u = some (.passed, n) := by
      rw [statusLine_eq] at hfound
      split at hfound
      · exact hfound
      · cases hfound
    obtain ⟨s, -, hs⟩ := List.exists_of_findSome?_eq_some hlead
    rw [leading?] at hs
    cases hafter : Text.after? s.name (Text.trimLeft u) with
    | none => rw [hafter] at hs; cases hs
    | some rest =>
      obtain rfl : s = .passed := by
        rw [hafter] at hs
        dsimp only at hs
        split at hs
        · exact congrArg Prod.fst (Option.some.inj hs)
        · cases hs
      have hword : Status.passed.name <+: Text.trimLeft u :=
        ⟨rest, (Text.eq_append_of_after? hafter).symm⟩
      exact Text.contains_iff_infix.2
        (hword.isInfix.trans ((List.dropWhile_suffix isBlank).trans hu).isInfix)
  · exact h

/-- What counts the failures of a test. -/
def failureCounters : List (Recogniser Text) :=
  [labelled "Failed server calls:" isDecimal, labelled "Failed asserts:" isDecimal, exceptionCount]

/-- Whether a counter is missing or shows nothing but zeros. -/
def CountsNothing (label : Recogniser Text) (raw : Text) : Prop :=
  ∀ ds ∈ label.first? raw, ∀ c ∈ ds, decimalValue? c = some 0

theorem isDecimal_of_labelled {label : Text} {before : Option Char} {t ds : Text} {n : Nat}
    (h : labelled label isDecimal before t = some (ds, n)) : ∀ c ∈ ds, isDecimal c = true := by
  simp only [labelled, Option.bind_eq_bind, Option.bind_eq_some_iff] at h
  obtain ⟨_, _, g, _, h⟩ := h
  split at h
  · cases h
  · cases h
    exact fun c hc => List.mem_takeWhile_imp hc

theorem isDecimal_of_first? {label : Recogniser Text} (hlabel : label ∈ failureCounters) {ds : Text}
    (h : label.first? raw = some ds) : ∀ c ∈ ds, isDecimal c = true := by
  obtain ⟨before, u, n, -, hfound⟩ := Recogniser.exists_of_search h
  simp only [failureCounters, List.mem_cons, List.not_mem_nil, or_false] at hlabel
  rcases hlabel with rfl | rfl | rfl
  · exact isDecimal_of_labelled hfound
  · exact isDecimal_of_labelled hfound
  · rw [exceptionCount] at hfound
    cases hcolon : labelled "Exceptions:" isDecimal before u with
    | none =>
      rw [hcolon] at hfound
      exact isDecimal_of_labelled (show labelled _ _ before u = _ from hfound)
    | some find =>
      rw [hcolon] at hfound
      cases hfound
      exact isDecimal_of_labelled hcolon

end Report

theorem Numeral.value_eq_zero_iff {ds : List Nat} : value ds = 0 ↔ ∀ d ∈ ds, d = 0 := by
  suffices h : ∀ n, ds.foldl (fun n d => 10 * n + d) n = 0 ↔ n = 0 ∧ ∀ d ∈ ds, d = 0 by
    rw [value, h, and_iff_right rfl]
  induction ds with
  | nil => simp
  | cons d ds ih =>
    intro n
    rw [List.foldl_cons, ih, List.forall_mem_cons, ← and_assoc]
    exact and_congr_left fun _ => by omega

namespace Report

theorem counter_eq_zero_iff {label : Recogniser Text} (hlabel : label ∈ failureCounters) {n : Int}
    (h : counter label raw = .ok n) : n = 0 ↔ CountsNothing label raw := by
  rw [counter] at h
  rw [CountsNothing]
  cases hfirst : label.first? raw with
  | none =>
    rw [hfirst] at h
    obtain rfl := Except.ok.inj h
    simp
  | some ds =>
    have hdecimal := isDecimal_of_first? hlabel hfirst
    simp only [hfirst, Trace.count] at h
    split at h
    · cases h
    obtain rfl := Except.ok.inj h
    rw [Int.ofNat_eq_natCast, Int.natCast_eq_zero, Numeral.value_eq_zero_iff]
    constructor
    · intro hzero ds' hds' c hc
      obtain rfl := Option.some.inj hds'
      obtain ⟨d, hd⟩ := Option.isSome_iff_exists.1 (hdecimal c hc)
      rw [hd, hzero d (List.mem_filterMap.2 ⟨c, hc, hd⟩)]
    · intro hzero d hd
      obtain ⟨c, hc, hd⟩ := List.mem_filterMap.1 hd
      rw [hzero ds rfl c hc] at hd
      exact (Option.some.inj hd).symm

/-- Whether an output is one of success: it says that the test passed, and it counts no failure. -/
def Succeeds (raw : Text) : Prop :=
  SaysPassed raw ∧ ∀ label ∈ failureCounters, CountsNothing label raw

theorem succeeds_iff {report : Report} (h : read raw = .ok report) :
    Result.succeeds report = true ↔ Succeeds raw := by
  obtain ⟨-, hstatus, -, -, -, -, hfailed, -, hfailedAsserts, hexceptions⟩ := read_eq_ok_iff.1 h
  rw [Succeeds, ← statusOf_eq_passed_iff, ← hstatus]
  simp only [failureCounters, List.forall_mem_cons, List.not_mem_nil, false_implies, implies_true,
    and_true]
  rw [← counter_eq_zero_iff (by simp [failureCounters]) hfailed,
    ← counter_eq_zero_iff (by simp [failureCounters]) hfailedAsserts,
    ← counter_eq_zero_iff (by simp [failureCounters]) hexceptions]
  simp [Result.succeeds, and_assoc]

end Report

/-! ## Results without a report -/

open Report (Succeeds)

/-- The one kind of error for an output without a report. -/
theorem Finding.exists_parseError_iff {runs : List Trace.Run} :
    (∃ f ∈ errors raw runs, f.kind = .parseError) ↔ Text.contains "Test Report" raw = false := by
  have hfilter : (∃ f ∈ errors raw runs, f.kind = .parseError) ↔
      (errors raw runs).filter (·.kind = .parseError) ≠ [] := by
    simp [List.filter_eq_nil_iff]
  rw [hfilter, filter_kind_errors, ofKind, missingReport]
  cases Text.contains "Test Report" raw <;> simp

/-- The report of what to mend has nothing to say of a success only. -/
theorem Remedy.report_eq_iff :
    Remedy.report r = "No fixes needed - test passed successfully." ↔ r.success = true := by
  rw [Remedy.report]
  cases r.success with
  | true => simp
  | false => exact iff_of_false nofun Bool.false_ne_true

/-- How the summary of a success begins. -/
def Analysis.passedFront (r : Result) : Text :=
  "Test ".toList ++ r.report.testName ++ " passed successfully in ".toList

/-- The summary tells of a success only. -/
theorem Analysis.passedFront_isPrefix_iff {t : Text} (h : Analysis.summarize r = .ok t) :
    Analysis.passedFront r <+: t ↔ r.success = true := by
  rw [Analysis.summarize] at h
  cases hsuccess : r.success with
  | true =>
    rw [hsuccess, if_pos rfl] at h
    obtain ⟨seconds, -, h⟩ := bind_eq_ok_iff.1 h
    obtain rfl := Except.ok.inj h
    refine iff_of_true ?_ rfl
    simp only [passedFront, List.append_assoc]
    exact (List.prefix_append_right_inj _).2 <| (List.prefix_append_right_inj _).2 <|
      List.prefix_append _ _
  | false =>
    rw [hsuccess, if_neg Bool.false_ne_true] at h
    obtain rfl := Except.ok.inj h
    refine iff_of_false ?_ Bool.false_ne_true
    simp only [passedFront, List.append_assoc, List.prefix_append_right_inj]
    rintro ⟨rest, hrest⟩
    cases hrest

namespace Result

theorem success_eq_true_iff (h : Result.ofText raw = .ok r) :
    r.success = true ↔ Succeeds raw := by
  simp only [Result.ofText, bind_eq_ok_iff] at h
  obtain ⟨_, -, report, hreport, _, -, _, -, h⟩ := h
  obtain rfl := Except.ok.inj h
  exact Report.succeeds_iff hreport

/-- **What makes a result a success.** There is an error for the missing report exactly when the
output has no report. A success is what says that the test passed and counts no failure, with or
without a report, and what does not hold the word at all is never one. The remedies and the summary
announce a success, and nothing else, as such. -/
theorem success_iff_says_passed (h : Result.ofText raw = .ok r) :
    ((∃ f ∈ r.errors, f.kind = .parseError) ↔ Text.contains "Test Report" raw = false) ∧
    (r.success = true ↔ Succeeds raw) ∧
    (Text.contains "Passed" raw = false → r.success = false) ∧
    (Remedy.report r = "No fixes needed - test passed successfully." ↔ r.success = true) ∧
    ∀ t, Analysis.summarize r = .ok t → (Analysis.passedFront r <+: t ↔ r.success = true) := by
  obtain ⟨runs, -, hruns⟩ := errors_of_ofText h
  have hsuccess := success_eq_true_iff h
  refine ⟨?_, hsuccess, fun hword => ?_, Remedy.report_eq_iff,
    fun t ht => Analysis.passedFront_isPrefix_iff ht⟩
  · rw [hruns]
    exact Finding.exists_parseError_iff
  · rw [← Bool.not_eq_true, hsuccess]
    rintro ⟨hpassed, -⟩
    rw [hpassed.contains] at hword
    cases hword

/-- A trace that breaks off is no success. -/
theorem success_eq_false_of_broken_trace :
    ∃ r, Result.ofText "2025-12-05 11:00:00 Command: Get Orders" = .ok r ∧ r.success = false := by
  obtain ⟨r, hr, -⟩ := Redaction.exists_eq_ok
    (e := Result.ofText "2025-12-05 11:00:00 Command: Get Orders") (p := fun _ => true)
    (by decide +kernel)
  exact ⟨r, hr, (success_iff_says_passed hr).2.2.1 (by decide)⟩

/-- The word alone is a success without a report. -/
theorem success_without_report :
    ∃ r, Result.ofText "Passed" = .ok r ∧ r.success = true ∧
      (∃ f ∈ r.errors, f.kind = .parseError) ∧
      Remedy.report r = "No fixes needed - test passed successfully." := by
  obtain ⟨r, hr, hp⟩ := Redaction.exists_eq_ok (e := Result.ofText "Passed")
    (p := fun r => r.success && r.errors.any (fun f => f.kind = .parseError)) (by decide +kernel)
  rw [Bool.and_eq_true, List.any_eq_true] at hp
  obtain ⟨hsuccess, f, hf, hkind⟩ := hp
  exact ⟨r, hr, hsuccess, ⟨f, hf, of_decide_eq_true hkind⟩, Remedy.report_eq_iff.2 hsuccess⟩

end Result

end ScriptAudit
