import ScriptAudit.Output.Finding
import ScriptAudit.Output.Report
import ScriptAudit.Proofs.Fault

/-!
# Counts in the output

The output of the interpreter holds counts in three places: the codes of results, the counters of
the report, and averages between quotation marks. The digits may be of any script, but there may be
at most `Numeral.maxDigits` of them; nothing else keeps the trace, the report and the warnings from
being read.
-/

namespace ScriptAudit

namespace Trace

/-- Whether digits are few enough to be read as a count. -/
def Readable (ds : Text) : Prop := ds.length ≤ Numeral.maxDigits

instance (ds : Text) : Decidable (Readable ds) := inferInstanceAs (Decidable (_ ≤ _))

theorem answers_count_iff {ds : Text} : Answers (count ds) ↔ Readable ds := by
  rw [count, Readable]
  split
  · next h => exact iff_of_false (not_answers_error _) (Nat.not_le.2 h)
  · next h => exact iff_of_true (answers_ok _) (Nat.le_of_not_lt h)

/-! ## The trace -/

/-- The digits of the code on a line of a trace, if the line tells of a result. -/
def codeDigits? (line : Text) : Option Text := do
  let e ← entry? (Text.trim line)
  e.code

theorem answers_token?_iff (number : Nat) {line : Text} :
    Answers (token? number line) ↔ ∀ ds ∈ codeDigits? line, Readable ds := by
  rw [token?, codeDigits?]
  cases entry? (Text.trim line) with
  | none => simp
  | some e =>
    obtain ⟨timestamp, code, text⟩ := e
    cases code with
    | none => exact iff_of_true (answers_pure _) nofun
    | some ds =>
      refine (answers_bind_of_forall fun _ => answers_pure _).trans ?_
      rw [answers_map_iff, answers_count_iff]
      exact ⟨fun h _ hds => Option.some.inj hds ▸ h, fun h => h ds rfl⟩

theorem answers_tokensFrom_iff (number : Nat) {lines : List Text} :
    Answers (tokensFrom number lines) ↔ ∀ l ∈ lines, ∀ ds ∈ codeDigits? l, Readable ds := by
  induction lines generalizing number with
  | nil => simp [tokensFrom]
  | cons l ls ih =>
    rw [tokensFrom, answers_bind_iff, List.forall_mem_cons, ← answers_token?_iff number,
      ← ih (number + 1)]
    simp only [answers_bind_of_forall fun _ => answers_pure _]
    exact ⟨fun ⟨t, ht, hrest⟩ => ⟨⟨t, ht⟩, hrest⟩, fun ⟨⟨t, ht⟩, hrest⟩ => ⟨t, ht, hrest⟩⟩

/-- A trace is read as long as the codes of its results are. -/
theorem answers_ofText_iff {raw : Text} :
    Answers (ofText raw) ↔ ∀ l ∈ Text.lines raw, ∀ ds ∈ codeDigits? l, Readable ds := by
  rw [ofText, answers_map_iff, tokens, answers_tokensFrom_iff]

end Trace

open Trace (Readable answers_count_iff)

/-! ## The report -/

namespace Report

/-- What the counters of a report are found by. -/
def counters : List (Recogniser Text) :=
  [labelled "Server calls:" isDecimal, labelled "Failed server calls:" isDecimal,
    labelled "Asserts:" isDecimal, labelled "Failed asserts:" isDecimal, exceptionCount]

theorem answers_counter_iff {label : Recogniser Text} {raw : Text} :
    Answers (counter label raw) ↔ ∀ ds ∈ label.first? raw, Readable ds := by
  rw [counter]
  cases label.first? raw with
  | none => simp
  | some ds => simp [answers_count_iff]

/-- A report is read as long as its counters are. -/
theorem answers_read_iff {raw : Text} :
    Answers (read raw) ↔ ∀ label ∈ counters, ∀ ds ∈ label.first? raw, Readable ds := by
  have hstep {label : Recogniser Text} {β : Type} {f : Int → Except Fault β} {p : Prop}
      (h : ∀ n, Answers (f n) ↔ p) :
      Answers (counter label raw >>= f) ↔ (∀ ds ∈ label.first? raw, Readable ds) ∧ p := by
    rw [answers_bind_iff_and h, answers_counter_iff]
  simp only [counters, List.forall_mem_cons, List.not_mem_nil, false_implies, implies_true]
  exact hstep fun _ => hstep fun _ => hstep fun _ => hstep fun _ => hstep fun _ =>
    iff_of_true (answers_pure _) trivial

/-- The name of a test: that of the heading, or else that of the file. -/
def nameOf (raw : Text) : Text :=
  match heading.first? raw with
  | some (_, name) => name
  | none => (fileName.first? raw).getD "Unknown"

/-- What a report that is read tells. -/
theorem read_eq_ok_iff {raw : Text} {report : Report} : read raw = .ok report ↔
    report.testName = nameOf raw ∧ report.status = statusOf raw ∧
      report.seconds = secondsOf raw ∧
      report.filePath = Text.trim ((path.first? raw).getD []) ∧
      report.testType = (heading.first? raw).map Prod.fst ∧
      counter (labelled "Server calls:" isDecimal) raw = .ok report.serverCalls ∧
      counter (labelled "Failed server calls:" isDecimal) raw = .ok report.failedServerCalls ∧
      counter (labelled "Asserts:" isDecimal) raw = .ok report.asserts ∧
      counter (labelled "Failed asserts:" isDecimal) raw = .ok report.failedAsserts ∧
      counter exceptionCount raw = .ok report.exceptions := by
  simp only [read, bind_eq_ok_iff]
  constructor
  · rintro ⟨calls, hcalls, failed, hfailed, asserts, hasserts, failedAsserts, hfailedAsserts,
      exceptions, hexceptions, h⟩
    obtain rfl := Except.ok.inj h
    exact ⟨rfl, rfl, rfl, rfl, rfl, hcalls, hfailed, hasserts, hfailedAsserts, hexceptions⟩
  · rintro ⟨hname, hstatus, hseconds, hpath, htype, hcalls, hfailed, hasserts, hfailedAsserts,
      hexceptions⟩
    refine ⟨_, hcalls, _, hfailed, _, hasserts, _, hfailedAsserts, _, hexceptions, ?_⟩
    obtain ⟨testName, status, seconds, filePath, testType, calls, failed, asserts, failedAsserts,
      exceptions⟩ := report
    obtain rfl : testName = _ := hname
    obtain rfl : status = _ := hstatus
    obtain rfl : seconds = _ := hseconds
    obtain rfl : filePath = _ := hpath
    obtain rfl : testType = _ := htype
    rfl

end Report

/-! ## Warnings -/

namespace Finding

theorem answers_averageWarning_iff {ds : Text} : Answers (averageWarning ds) ↔ Readable ds := by
  rw [averageWarning, ← answers_count_iff]
  refine answers_bind_of_forall fun n => ?_
  split <;> exact answers_pure _

/-- The warnings are known as long as the averages are read. -/
theorem answers_warnings_iff {raw : Text} :
    Answers (warnings raw) ↔ ∀ ds ∈ quotedAverage.occurrences raw, Readable ds := by
  rw [warnings, answers_bind_of_forall fun _ => answers_pure _, answers_mapM_iff]
  simp only [answers_averageWarning_iff]

end Finding

end ScriptAudit
