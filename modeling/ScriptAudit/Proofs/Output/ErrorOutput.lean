import ScriptAudit.Proofs.Output.Answers
import ScriptAudit.Proofs.Output.Verdict

/-!
# The error output behind the output

The error output of the interpreter follows its output behind `Statistics.separator`. The statistics
are read of the output alone (`Statistics.read_append`; a last line like that of the separator is
taken for the separator, `Statistics.output`), but every figure of the report is looked for in both.
Figures that the output gives are kept (`Report.read_append_of_complete`), and any figure that it
lacks can be given by the error output. So `Report.Complete` is exactly what keeps the error output
from changing the report, and `Report.Decided` what keeps it from changing the verdict
(`Result.error_output_irrelevant_iff`).
-/

namespace ScriptAudit

open Statistics (separator)

variable {s e : Text}

/-! ## Statistics -/

namespace Statistics

/-- The separator without the end of its line. -/
def lastLine : Text := "\n--- STDERR ---"

/-- What stands in front of the separator once an error output follows. A last line like that of the
separator does not belong to it. -/
def output (s : Text) : Text := ((Text.cut? separator (s ++ ['\n'])).map Prod.fst).getD s

theorem cut?_separator (h : Text.contains separator (s ++ ['\n']) = false) (e : Text) :
    Text.cut? separator (s ++ (separator ++ e)) = some (s, e) :=
  Text.cut?_append "--- STDERR ---".toList (by decide) h e

/-- Without a last line like that of the separator the whole text is the output. -/
theorem output_cases (h : Text.contains separator s = false) :
    (output s = s ∧ Text.contains separator (s ++ ['\n']) = false) ∨
      ∃ u, s = u ++ lastLine ∧ output s = u ∧ Text.contains separator (u ++ ['\n']) = false := by
  cases hline : Text.contains separator (s ++ ['\n']) with
  | false =>
    refine Or.inl ⟨?_, rfl⟩
    rw [output, Text.cut?_eq_none hline]
    rfl
  | true =>
    rw [← Bool.not_eq_true, Text.contains_iff_infix] at h
    obtain ⟨u, v, hsplit⟩ := Text.contains_iff_infix.1 hline
    -- the separator ends with the last line, since it is not in the text itself
    obtain rfl : v = [] := by
      by_contra hv
      refine h ⟨u, v.dropLast, ?_⟩
      have hlast := congrArg List.dropLast hsplit
      rwa [List.dropLast_append_of_ne_nil hv, List.dropLast_concat] at hlast
    obtain rfl : u ++ lastLine = s := by
      have hlast := congrArg List.dropLast hsplit
      rw [List.dropLast_concat] at hlast
      rw [← hlast, List.append_nil, List.dropLast_append_of_ne_nil (by decide)]
      rfl
    have hu : Text.contains separator (u ++ ['\n']) = false := by
      rw [← Bool.not_eq_true, Text.contains_iff_infix]
      refine fun hu => h (hu.trans ⟨[], "--- STDERR ---".toList, ?_⟩)
      rw [List.nil_append, List.append_assoc]
      rfl
    refine Or.inr ⟨u, rfl, ?_, hu⟩
    have hcut := cut?_separator hu []
    rw [← List.append_assoc, hsplit] at hcut
    rw [output, hcut]
    rfl

/-- The statistics are read of the output alone. -/
theorem read_append (h : Text.contains separator s = false) (e : Text) :
    read (s ++ (separator ++ e)) = read (output s) := by
  have hfront {u : Text} (hu : Text.contains separator (u ++ ['\n']) = false) (t : Text) :
      read (u ++ (separator ++ t)) = read u := by
    have hself : Text.contains separator u = false := by
      rw [← Bool.not_eq_true, Text.contains_iff_infix] at hu ⊢
      exact fun hself => hu (hself.trans (List.infix_append' [] u ['\n']))
    have hbefore : Text.before separator (u ++ (separator ++ t)) = Text.before separator u := by
      rw [Text.before_eq_self hself, Text.before, cut?_separator hu]
      rfl
    simp only [read, array?, hbefore]
  rcases output_cases h with ⟨hs, hline⟩ | ⟨u, rfl, hs, hu⟩
  · rw [hs, hfront hline]
  · rw [hs, List.append_assoc, ← hfront hu ("--- STDERR ---\n".toList ++ e)]
    rfl

end Statistics

/-! ## What is found in both outputs -/

namespace Report

variable {α : Type} {r : Recogniser α}

/-- A recogniser that the separator, with anything behind it, does not concern: in the output
nothing else is found in front of it, and nothing is found where it begins. -/
structure Unconcerned (r : Recogniser α) : Prop where
  endsBefore : ∀ e, r.EndsBefore (separator ++ e)
  eq_none : ∀ e before, r before (separator ++ e) = none

/-- Where nothing is found at the separator, the search goes on behind it. -/
theorem search_separator (h : ∀ before, r before (separator ++ e) = none) (before : Option Char) :
    r.search before (separator ++ e) = r.first? (separator ++ e) := by
  have hopen (b : Option Char) : r.search b (separator ++ e) =
      r.search (some '\n') ('-' :: ("-- STDERR ---\n".toList ++ e)) := by
    have hnone := h b
    rw [Statistics.separator_append] at hnone ⊢
    rw [Recogniser.search, hnone]
  rw [Recogniser.first?, hopen, hopen]

theorem Unconcerned.first?_append (h : Unconcerned r) (s e : Text) :
    r.first? (s ++ (separator ++ e)) = (r.first? s).or (r.first? (separator ++ e)) := by
  rw [(h.endsBefore e).first?_append, search_separator (h.eq_none e)]

theorem Unconcerned.first?_of_found (h : Unconcerned r) (hs : r.found s = true) (e : Text) :
    r.first? (s ++ (separator ++ e)) = r.first? s := by
  obtain ⟨a, ha⟩ := Option.isSome_iff_exists.1 hs
  rw [h.first?_append, ha]
  rfl

theorem Unconcerned.first?_of_not_found (h : Unconcerned r) (hs : r.first? s = none) (e : Text) :
    r.first? (s ++ (separator ++ e)) = r.first? (separator ++ e) := by
  rw [h.first?_append, hs]
  rfl

theorem unconcerned_labelled {c : Char} {cs : Text} {p : Char → Bool} (hlabel : '\n' ∉ c :: cs)
    (hbreak : p '\n' = false) (hdash : p '-' = false) : Unconcerned (labelled (c :: cs) p) where
  endsBefore _ := labelled_endsBefore hlabel hbreak hdash
  eq_none e before := by
    rw [List.mem_cons, not_or] at hlabel
    rw [Statistics.separator_append]
    simp [labelled, Text.after?, Ne.symm hlabel.1]

theorem unconcerned_of_mem_counters {label : Recogniser Text} (h : label ∈ counters) :
    Unconcerned label := by
  simp only [counters, List.mem_cons, List.not_mem_nil, or_false] at h
  rcases h with rfl | rfl | rfl | rfl | rfl
  · exact unconcerned_labelled (by decide) (by decide) (by decide)
  · exact unconcerned_labelled (by decide) (by decide) (by decide)
  · exact unconcerned_labelled (by decide) (by decide) (by decide)
  · exact unconcerned_labelled (by decide) (by decide) (by decide)
  · exact ⟨fun _ => exceptionCount_endsBefore, fun e before => rfl⟩

theorem unconcerned_statusLine : Unconcerned statusLine where
  endsBefore _ := statusLine_endsBefore
  eq_none e before := by
    rw [statusLine_eq]
    exact ite_self none

theorem unconcerned_path : Unconcerned path := ⟨fun _ => path_endsBefore, fun _ _ => rfl⟩

/-- Finds the duration of a test. -/
def duration : Recogniser Text := labelled "time:" fun c => isDecimal c || c == '.'

theorem unconcerned_duration : Unconcerned duration :=
  unconcerned_labelled (by decide) (by decide) (by decide)

theorem secondsOf_eq (raw : Text) : secondsOf raw =
    .float (((duration.first? raw).bind Numeral.float?).getD (Binary64.withSign false 0)) := by
  rw [duration]
  simp only [secondsOf]
  cases (labelled "time:" fun c => isDecimal c || c == '.').first? raw <;> rfl

/-! ## The report -/

/-- Whether an output gives every figure of the report. -/
structure Complete (s : Text) : Prop where
  heading : heading.found s = true
  status : statusLine.found s = true
  duration : duration.found s = true
  path : path.found s = true
  counters : ∀ label ∈ counters, label.found s = true

theorem statusOf_append (h : statusLine.found s = true) (e : Text) :
    statusOf (s ++ (separator ++ e)) = statusOf s := by
  obtain ⟨status, hstatus⟩ := Option.isSome_iff_exists.1 h
  have hboth := unconcerned_statusLine.first?_of_found h e
  rw [hstatus] at hboth
  rw [statusOf, statusOf, hboth, hstatus]

theorem counter_append {label : Recogniser Text} (hlabel : label ∈ counters)
    (h : label.found s = true) (e : Text) :
    counter label (s ++ (separator ++ e)) = counter label s := by
  rw [counter, counter, (unconcerned_of_mem_counters hlabel).first?_of_found h]

/-- The error output does not change a complete report. -/
theorem read_append_of_complete (h : Complete s) (e : Text) :
    read (s ++ (separator ++ e)) = read s := by
  obtain ⟨head, hhead⟩ := Option.isSome_iff_exists.1 h.heading
  have hheading : Report.heading.first? (s ++ (separator ++ e)) = some head :=
    search_heading_append hhead
  have hseconds : secondsOf (s ++ (separator ++ e)) = secondsOf s := by
    rw [secondsOf_eq, secondsOf_eq, unconcerned_duration.first?_of_found h.duration]
  have hpath := unconcerned_path.first?_of_found h.path e
  have hcounters := h.counters
  simp only [counters, List.forall_mem_cons, List.not_mem_nil, false_implies, implies_true,
    and_true] at hcounters
  obtain ⟨hcalls, hfailed, hasserts, hfailedAsserts, hexceptions⟩ := hcounters
  simp only [read, hheading, hhead, statusOf_append h.status, hseconds, hpath,
    counter_append (by simp [counters]) hcalls, counter_append (by simp [counters]) hfailed,
    counter_append (by simp [counters]) hasserts,
    counter_append (by simp [counters]) hfailedAsserts,
    counter_append (by simp [counters]) hexceptions]

end Report

/-! ## Both outputs together -/

theorem Trace.codeDigits?_nil : Trace.codeDigits? [] = none := rfl

/-- An output and an error output that are legible by themselves are so together, as long as the
statistics are. -/
theorem Legible.append (hs : Legible s) (he : Legible (separator ++ e))
    (h : Answers (Statistics.read (s ++ (separator ++ e)))) : Legible (s ++ (separator ++ e)) where
  codes line hline := by
    have hbreak (u : Text) : Text.lines (u ++ (separator ++ e)) =
        Text.lines (u ++ ['\n']) ++ Text.lines ('-' :: ("-- STDERR ---\n".toList ++ e)) :=
      Text.lines_newline_append u _
    rw [hbreak] at hline
    rcases List.mem_append.1 hline with hline | hline
    · obtain ⟨rest, hrest, hempty⟩ := Text.exists_linesFrom_append_newline s false
      rw [Text.lines, hrest] at hline
      rcases List.mem_append.1 hline with hline | hline
      · exact hs.codes line hline
      · have hnil : line = [] := by
          rcases hempty with rfl | rfl
          · cases hline
          · exact List.mem_singleton.1 hline
        rw [hnil, Trace.codeDigits?_nil]
        intro ds hds
        cases hds
    · have hboth := hbreak []
      rw [List.nil_append] at hboth
      exact he.codes line (hboth ▸ List.mem_append_right _ hline)
  counters label hlabel ds hds := by
    rw [(Report.unconcerned_of_mem_counters hlabel).first?_append] at hds
    rcases Option.or_eq_some_iff.1 hds with hds | ⟨-, hds⟩
    · exact hs.counters label hlabel ds hds
    · exact he.counters label hlabel ds hds
  statistics := Statistics.answers_read_iff.1 h
  averages ds hds := by
    have hseparator (before : Option Char) :
        Finding.quotedAverage.collect 0 before (separator ++ e) =
          Finding.quotedAverage.occurrences (separator ++ e) := rfl
    rw [Finding.quotedAverage_endsBefore.occurrences_append
      (fun _ _ _ _ => Finding.quotedAverage_le), hseparator] at hds
    rcases List.mem_append.1 hds with hds | hds
    · exact hs.averages ds hds
    · exact he.averages ds hds

/-! ## What the error output can give -/

namespace Report

/-- Any counter can be given by the error output. -/
theorem exists_counter {label : Recogniser Text} (h : label ∈ counters) :
    ∃ e, Answers (Result.ofText (separator ++ e)) ∧ label.first? (separator ++ e) = some ['1'] := by
  simp only [counters, List.mem_cons, List.not_mem_nil, or_false] at h
  rcases h with rfl | rfl | rfl | rfl | rfl
  · exact ⟨"Server calls: 1".toList, by decide +kernel, by decide +kernel⟩
  · exact ⟨"Failed server calls: 1".toList, by decide +kernel, by decide +kernel⟩
  · exact ⟨"Asserts: 1".toList, by decide +kernel, by decide +kernel⟩
  · exact ⟨"Failed asserts: 1".toList, by decide +kernel, by decide +kernel⟩
  · exact ⟨"Exceptions: 1".toList, by decide +kernel, by decide +kernel⟩

/-- An error output that tells a status only is read. -/
theorem answers_status : Answers (Result.ofText (separator ++ "Passed".toList)) ∧
    Answers (Result.ofText (separator ++ "Failed".toList)) := by
  decide +kernel

/-- Both verdicts can be told by the error output. -/
theorem statusOf_append_of_not_found (h : statusLine.first? s = none) :
    statusOf (s ++ (separator ++ "Passed".toList)) = .passed ∧
      statusOf (s ++ (separator ++ "Failed".toList)) = .failed := by
  have hboth (e : Text) := unconcerned_statusLine.first?_of_not_found h e
  have hpassed : statusLine.first? (separator ++ "Passed".toList) = some .passed := by
    rw [first?_statusLine]
    decide
  have hfailed : statusLine.first? (separator ++ "Failed".toList) = some .failed := by
    rw [first?_statusLine]
    decide
  rw [statusOf, statusOf, hboth, hboth, hpassed, hfailed]
  exact ⟨rfl, rfl⟩

/-- A heading is found in two texts when the second one has it. -/
theorem isSome_search_append {α : Type} {r : Recogniser α} {rest : Text}
    (h : ∀ before, (r.search before rest).isSome = true) (before : Option Char) (t : Text) :
    (r.search before (t ++ rest)).isSome = true := by
  induction t generalizing before with
  | nil => exact h before
  | cons c cs ih =>
    rw [List.cons_append, Recogniser.search]
    split
    · rfl
    · exact ih (some c)

/-- Texts with the same report agree in what it tells. -/
theorem eq_of_read_eq {t : Text} {report : Report} (hs : read s = .ok report)
    (ht : read t = .ok report) :
    statusOf t = statusOf s ∧ secondsOf t = secondsOf s ∧
      Text.trim ((path.first? t).getD []) = Text.trim ((path.first? s).getD []) ∧
      (heading.first? t).map Prod.fst = (heading.first? s).map Prod.fst ∧
      ∀ label ∈ counters, counter label t = counter label s := by
  obtain ⟨-, hstatus, hseconds, hpath, htype, hcalls, hfailed, hasserts, hfailedAsserts,
    hexceptions⟩ := read_eq_ok_iff.1 hs
  obtain ⟨-, hstatus', hseconds', hpath', htype', hcalls', hfailed', hasserts', hfailedAsserts',
    hexceptions'⟩ := read_eq_ok_iff.1 ht
  refine ⟨hstatus' ▸ hstatus, hseconds' ▸ hseconds, hpath' ▸ hpath, htype' ▸ htype, ?_⟩
  simp only [counters, List.forall_mem_cons, List.not_mem_nil, false_implies, implies_true,
    and_true]
  exact ⟨hcalls' ▸ hcalls.symm, hfailed' ▸ hfailed.symm, hasserts' ▸ hasserts.symm,
    hfailedAsserts' ▸ hfailedAsserts.symm, hexceptions' ▸ hexceptions.symm⟩

/-- A report that no error output changes is complete. -/
theorem complete_of_kept {report : Report} (hread : read s = .ok report)
    (hkept : ∀ e, Answers (Result.ofText (separator ++ e)) →
      read (s ++ (separator ++ e)) = .ok report) : Complete s := by
  have hsame (e : Text) (he : Answers (Result.ofText (separator ++ e))) :=
    eq_of_read_eq hread (hkept e he)
  have hfound {α : Type} {r : Recogniser α} (h : r.first? s ≠ none) : r.found s = true :=
    Option.isSome_iff_ne_none.2 h
  refine ⟨hfound fun hnone => ?_, hfound fun hnone => ?_, hfound fun hnone => ?_,
    hfound fun hnone => ?_, fun label hlabel => hfound fun hnone => ?_⟩
  · obtain ⟨-, -, -, htype, -⟩ := hsame "TestCase Orders".toList (by decide +kernel)
    have hsome : (heading.first? (s ++ (separator ++ "TestCase Orders".toList))).isSome = true := by
      refine isSome_search_append (fun before => ?_) none s
      have hdashes (b : Option Char) :
          heading b (separator ++ "TestCase Orders".toList) = none := by
        rw [heading_eq]
        cases lineStarts b
        · rfl
        · decide +kernel
      rw [search_separator hdashes]
      decide +kernel
    rw [hnone] at htype
    rw [Option.map_eq_none_iff.1 htype] at hsome
    cases hsome
  · obtain ⟨hpassed, hfailed⟩ := statusOf_append_of_not_found hnone
    have h := (hsame "Passed".toList answers_status.1).1
    have h' := (hsame "Failed".toList answers_status.2).1
    rw [hpassed] at h
    rw [hfailed, ← h] at h'
    cases h'
  · obtain ⟨-, hseconds, -⟩ := hsame "time: 1".toList (by decide +kernel)
    rw [secondsOf_eq, secondsOf_eq, unconcerned_duration.first?_of_not_found hnone,
      hnone] at hseconds
    have hzero := Number.float.inj hseconds
    revert hzero
    decide +kernel
  · obtain ⟨-, -, hpath, -⟩ := hsame "file: orders.mkd".toList (by decide +kernel)
    rw [unconcerned_path.first?_of_not_found hnone, hnone] at hpath
    revert hpath
    decide +kernel
  · obtain ⟨e, he, hone⟩ := exists_counter hlabel
    obtain ⟨-, -, -, -, hcounters⟩ := hsame e he
    have hcount := hcounters label hlabel
    rw [counter, counter, (unconcerned_of_mem_counters hlabel).first?_of_not_found hnone, hone,
      hnone] at hcount
    have hvalue : Trace.count ['1'] = .ok 1 := rfl
    simp [hvalue, Except.map] at hcount

/-! ## The verdict -/

/-- Whether an output decides the verdict by itself: it tells or counts a failure, or it gives the
status and every counter of failures. -/
def Decided (s : Text) : Prop :=
  statusLine.first? s = some .failed ∨ (∃ label ∈ failureCounters, ¬ CountsNothing label s) ∨
    statusLine.found s = true ∧ ∀ label ∈ failureCounters, label.found s = true

theorem failureCounters_subset {label : Recogniser Text} (h : label ∈ failureCounters) :
    label ∈ counters := by
  simp only [failureCounters, counters, List.mem_cons, List.not_mem_nil, or_false] at h ⊢
  rcases h with hcalls | hasserts | hexceptions
  · exact Or.inr (Or.inl hcalls)
  · exact Or.inr (Or.inr (Or.inr (Or.inl hasserts)))
  · exact Or.inr (Or.inr (Or.inr (Or.inr hexceptions)))

theorem countsNothing_append {label : Recogniser Text} (hlabel : label ∈ failureCounters)
    (h : label.found s = true) (e : Text) :
    CountsNothing label (s ++ (separator ++ e)) ↔ CountsNothing label s := by
  rw [CountsNothing, CountsNothing,
    (unconcerned_of_mem_counters (failureCounters_subset hlabel)).first?_of_found h]

/-- A failure that is counted is one with any error output. -/
theorem not_countsNothing_append {label : Recogniser Text} (hlabel : label ∈ failureCounters)
    (h : ¬ CountsNothing label s) (e : Text) : ¬ CountsNothing label (s ++ (separator ++ e)) := by
  have hfound : label.found s = true := by
    refine Option.isSome_iff_ne_none.2 fun hnone => h fun ds hds => ?_
    rw [hnone] at hds
    cases hds
  rwa [countsNothing_append hlabel hfound]

/-- The error output does not change a verdict that is decided. -/
theorem succeeds_append_of_decided (h : Decided s) (e : Text) :
    Succeeds (s ++ (separator ++ e)) ↔ Succeeds s := by
  rcases h with hfailed | ⟨label, hlabel, hcount⟩ | ⟨hstatus, hfound⟩
  · have hnot {t : Text} (ht : statusLine.first? t = some .failed) : ¬ Succeeds t := by
      rintro ⟨hpassed, -⟩
      rw [← statusOf_eq_passed_iff, statusOf, ht] at hpassed
      cases hpassed
    have hfound : statusLine.found s = true := by simp [Recogniser.found, hfailed]
    have hboth := unconcerned_statusLine.first?_of_found hfound e
    exact iff_of_false (hnot (hboth.trans hfailed)) (hnot hfailed)
  · exact iff_of_false (fun h => not_countsNothing_append hlabel hcount e (h.2 label hlabel))
      fun h => hcount (h.2 label hlabel)
  · rw [Succeeds, Succeeds, ← statusOf_eq_passed_iff, ← statusOf_eq_passed_iff,
      statusOf_append hstatus]
    exact and_congr_right fun _ =>
      forall₂_congr fun label hlabel => countsNothing_append hlabel (hfound label hlabel) e

theorem first?_passed {label : Recogniser Text} (h : label ∈ failureCounters) :
    label.first? (separator ++ "Passed".toList) = none := by
  simp only [failureCounters, List.mem_cons, List.not_mem_nil, or_false] at h
  rcases h with rfl | rfl | rfl <;> rfl

/-- A verdict that no error output changes is decided. -/
theorem decided_of_kept (hkept : ∀ e, Answers (Result.ofText (separator ++ e)) →
    (Succeeds (s ++ (separator ++ e)) ↔ Succeeds s)) : Decided s := by
  by_contra hnot
  rw [Decided, not_or, not_or] at hnot
  obtain ⟨hfailed, hcounts, hmissing⟩ := hnot
  have hnothing (label : Recogniser Text) (hlabel : label ∈ failureCounters) :
      CountsNothing label s := by
    by_contra hcount
    exact hcounts ⟨label, hlabel, hcount⟩
  cases hstatus : statusLine.first? s with
  | none =>
    -- the error output may tell either verdict
    obtain ⟨hpassed, hfailed⟩ := statusOf_append_of_not_found hstatus
    have hyes : Succeeds (s ++ (separator ++ "Passed".toList)) := by
      refine ⟨statusOf_eq_passed_iff.1 hpassed, fun label hlabel ds hds => ?_⟩
      rw [(unconcerned_of_mem_counters (failureCounters_subset hlabel)).first?_append] at hds
      rcases Option.or_eq_some_iff.1 hds with hds | ⟨-, hds⟩
      · exact hnothing label hlabel ds hds
      · rw [first?_passed hlabel] at hds
        cases hds
    have hno : ¬ Succeeds (s ++ (separator ++ "Failed".toList)) := by
      rintro ⟨hpassed, -⟩
      rw [← statusOf_eq_passed_iff, hfailed] at hpassed
      cases hpassed
    rw [hkept _ answers_status.2] at hno
    rw [hkept _ answers_status.1] at hyes
    exact hno hyes
  | some status =>
    obtain rfl : status = .passed := by
      cases status with
      | passed => rfl
      | failed => exact absurd hstatus hfailed
      | error => exact absurd hstatus (statusLine_ne_error s)
    have hyes : Succeeds s :=
      ⟨statusOf_eq_passed_iff.1 (by rw [statusOf, hstatus]), hnothing⟩
    obtain ⟨label, hlabel, hnone⟩ : ∃ label ∈ failureCounters, label.first? s = none := by
      by_contra hall
      refine hmissing ⟨by simp [Recogniser.found, hstatus], fun label hlabel => ?_⟩
      exact Option.isSome_iff_ne_none.2 fun hnone => hall ⟨label, hlabel, hnone⟩
    -- the error output may count a failure
    have hmem := failureCounters_subset hlabel
    obtain ⟨e, he, hone⟩ := exists_counter hmem
    have hcount : ¬ CountsNothing label (s ++ (separator ++ e)) := by
      rw [CountsNothing, (unconcerned_of_mem_counters hmem).first?_of_not_found hnone, hone]
      intro h
      have := h ['1'] rfl '1' (by simp)
      revert this
      decide
    exact hcount (((hkept e he).2 hyes).2 label hlabel)

end Report

/-! ## Results -/

namespace Result

variable {r : Result}

theorem statistics_of_ofText {raw : Text} (h : ofText raw = .ok r) :
    Statistics.read raw = .ok r.statistics := by
  simp only [ofText, bind_eq_ok_iff] at h
  obtain ⟨_, -, _, -, statistics, hstatistics, _, -, h⟩ := h
  obtain rfl := Except.ok.inj h
  exact hstatistics

/-- With an error output that is read by itself a result is read, as long as the statistics are. -/
theorem exists_ofText_append (h : ofText s = .ok r) {e : Text}
    (he : Answers (ofText (separator ++ e)))
    (hread : Answers (Statistics.read (s ++ (separator ++ e)))) :
    ∃ r', ofText (s ++ (separator ++ e)) = .ok r' :=
  answers_ofText_iff.2 ((answers_ofText_iff.1 ⟨r, h⟩).append (answers_ofText_iff.1 he) hread)

/-- **What the error output can change.** The statistics are those of the output in front of the
separator, which is all of it unless its last line is like that of the separator. As long as these
are read, the report is kept with every error output exactly when the output gives each of its
figures, and the verdict exactly when the output decides it. -/
theorem error_output_irrelevant_iff (hmarker : Text.contains separator s = false)
    (h : ofText s = .ok r) :
    (Statistics.output s = s ∨ s = Statistics.output s ++ Statistics.lastLine) ∧
    ((∀ e r', ofText (s ++ (separator ++ e)) = .ok r' → r'.statistics = r.statistics) ↔
      ∀ calls, Statistics.read (Statistics.output s) = .ok calls → calls = r.statistics) ∧
    ((∀ e r', ofText (s ++ (separator ++ e)) = .ok r' → r'.report = r.report) ↔
      (Answers (Statistics.read (Statistics.output s)) → Report.Complete s)) ∧
    ((∀ e r', ofText (s ++ (separator ++ e)) = .ok r' → r'.success = r.success) ↔
      (Answers (Statistics.read (Statistics.output s)) → Report.Decided s)) := by
  have hreport := report_of_ofText h
  have hstatistics (e : Text) := Statistics.read_append hmarker e
  have hread {e : Text} {r' : Result} (hr' : ofText (s ++ (separator ++ e)) = .ok r') :
      Statistics.read (Statistics.output s) = .ok r'.statistics :=
    (hstatistics e).symm.trans (statistics_of_ofText hr')
  have hanswer (hout : Answers (Statistics.read (Statistics.output s))) (e : Text)
      (he : Answers (ofText (separator ++ e))) : ∃ r', ofText (s ++ (separator ++ e)) = .ok r' :=
    exists_ofText_append h he (by rwa [hstatistics])
  refine ⟨?_, ⟨fun hkept calls hcalls => ?_, fun hcalls e r' hr' => hcalls _ (hread hr')⟩,
    ⟨fun hkept hout => ?_, fun hcomplete e r' hr' => ?_⟩,
    ⟨fun hkept hout => ?_, fun hdecided e r' hr' => ?_⟩⟩
  · rcases Statistics.output_cases hmarker with ⟨hs, -⟩ | ⟨u, hs, hu, -⟩
    · exact Or.inl hs
    · exact Or.inr (by rw [hu, hs])
  · obtain ⟨r', hr'⟩ := hanswer ⟨calls, hcalls⟩ [] (by decide +kernel)
    rw [← hkept [] r' hr']
    exact Except.ok.inj (hcalls.symm.trans (hread hr'))
  · refine Report.complete_of_kept hreport fun e he => ?_
    obtain ⟨r', hr'⟩ := hanswer hout e he
    rw [report_of_ofText hr', hkept e r' hr']
  · have hboth := report_of_ofText hr'
    rw [Report.read_append_of_complete (hcomplete ⟨_, hread hr'⟩), hreport] at hboth
    exact (Except.ok.inj hboth).symm
  · refine Report.decided_of_kept fun e he => ?_
    obtain ⟨r', hr'⟩ := hanswer hout e he
    rw [← success_eq_true_iff hr', ← success_eq_true_iff h,
      hkept e r' hr']
  · rw [Bool.eq_iff_iff, success_eq_true_iff hr', success_eq_true_iff h]
    exact Report.succeeds_append_of_decided (hdecided ⟨_, hread hr'⟩) e

/-- The output of a test that passed, with every figure of its report. -/
def passedOutput : Text :=
  "TestCase A\nPassed\ntime: 1\nfile: a.mkd\nServer calls: 2\nFailed server calls: 0\n" ++
    "Asserts: 1\nFailed asserts: 0\nExceptions: 0\n".toList

/-- An error output that tells of a failure does not touch a report with every figure. -/
theorem report_eq_of_passedOutput :
    ∃ r r', ofText passedOutput = .ok r ∧
      ofText (passedOutput ++ (separator ++ "Failed\nFailed asserts: 3".toList)) = .ok r' ∧
      r'.report = r.report ∧ r'.success = r.success ∧ r'.statistics = r.statistics := by
  obtain ⟨r, hr⟩ : Answers (ofText passedOutput) := by decide +kernel
  obtain ⟨r', hr'⟩ : Answers (ofText
      (passedOutput ++ (separator ++ "Failed\nFailed asserts: 3".toList))) := by decide +kernel
  obtain ⟨-, hstatistics, hreport, hsuccess⟩ := error_output_irrelevant_iff (by decide +kernel) hr
  have hcounters : ∀ label ∈ Report.counters, label.found passedOutput = true := by
    decide +kernel
  have hcomplete : Report.Complete passedOutput :=
    ⟨by decide +kernel, by decide +kernel, by decide +kernel, by decide +kernel, hcounters⟩
  have hdecided : Report.Decided passedOutput :=
    Or.inr (Or.inr ⟨hcomplete.status, fun label hlabel =>
      hcounters label (Report.failureCounters_subset hlabel)⟩)
  have hout : Statistics.output passedOutput = passedOutput := by decide +kernel
  have hcalls (calls : List ServerCall)
      (h : Statistics.read (Statistics.output passedOutput) = .ok calls) : calls = r.statistics := by
    rw [hout, statistics_of_ofText hr] at h
    exact (Except.ok.inj h).symm
  exact ⟨r, r', hr, hr', hreport.2 (fun _ => hcomplete) _ r' hr',
    hsuccess.2 (fun _ => hdecided) _ r' hr', hstatistics.2 hcalls _ r' hr'⟩

/-- An error output that tells of a success makes one of an output without a report. -/
theorem success_of_error_output :
    ∃ r r', ofText [] = .ok r ∧ ofText ([] ++ (separator ++ "Passed".toList)) = .ok r' ∧
      r.success = false ∧ r'.success = true ∧ r'.report ≠ r.report := by
  obtain ⟨r, hr, hfailure⟩ := Redaction.exists_eq_ok (e := ofText [])
    (p := fun r => !r.success && r.report.status = .error) (by decide +kernel)
  obtain ⟨r', hr', hsuccess⟩ := Redaction.exists_eq_ok
    (e := ofText ([] ++ (separator ++ "Passed".toList)))
    (p := fun r => r.success && r.report.status = .passed) (by decide +kernel)
  simp only [Bool.and_eq_true, Bool.not_eq_true', decide_eq_true_eq] at hfailure hsuccess
  refine ⟨r, r', hr, hr', hfailure.1, hsuccess.1, fun heq => ?_⟩
  have hstatus := congrArg Report.status heq
  rw [hfailure.2, hsuccess.2] at hstatus
  cases hstatus

end Result

end ScriptAudit
