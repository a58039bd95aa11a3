import ScriptAudit.Output.Remedy
import ScriptAudit.Proofs.Output.Entries
import ScriptAudit.Proofs.Output.Reading

/-!
# Outputs that can be reviewed

`Result.answers_ofText_iff` says of which outputs a result is read: the counts are short enough and
no entry of the statistics is out of range (`Legible`). `Analysis.answers_ofResult_iff` says which
results can be analysed: the share of failed calls is within the floating-point numbers, and
something can be looked for in the address of each call (`Assessable`). Nothing else stands in the
way of a review.
-/

namespace ScriptAudit

variable {raw : Text} {r : Result}

/-! ## Results -/

/-- What an output must be like for a result to be read from it. -/
structure Legible (raw : Text) : Prop where
  /-- The codes of results are short enough. -/
  codes : ∀ line ∈ Text.lines raw, ∀ ds ∈ Trace.codeDigits? line, Trace.Readable ds
  /-- The counters of the report are short enough. -/
  counters : ∀ label ∈ Report.counters, ∀ ds ∈ label.first? raw, Trace.Readable ds
  /-- No entry of the statistics that is reached has a number out of range. -/
  statistics : ∀ f, ¬ Statistics.Overruns (Statistics.entries raw) f
  /-- The averages between quotation marks are short enough. -/
  averages : ∀ ds ∈ Finding.quotedAverage.occurrences raw, Trace.Readable ds

/-- A result is read exactly of a legible output. -/
theorem Result.answers_ofText_iff : Answers (Result.ofText raw) ↔ Legible raw := by
  have hsteps : Answers (Result.ofText raw) ↔ Answers (Trace.ofText raw) ∧
      Answers (Report.read raw) ∧ Answers (Statistics.read raw) ∧ Answers (Finding.warnings raw) :=
    answers_bind_iff_and fun _ => answers_bind_iff_and fun _ => answers_bind_iff_and fun _ =>
      answers_bind_of_forall fun _ => answers_pure _
  rw [hsteps, Trace.answers_ofText_iff, Report.answers_read_iff, Statistics.answers_read_iff,
    Finding.answers_warnings_iff]
  exact ⟨fun ⟨hcodes, hcounters, hstatistics, haverages⟩ =>
      ⟨hcodes, hcounters, hstatistics, haverages⟩,
    fun h => ⟨h.codes, h.counters, h.statistics, h.averages⟩⟩

/-- The duration that is read is a floating-point number. -/
theorem Report.seconds_of_read {report : Report} (h : Report.read raw = .ok report) :
    ∃ x, report.seconds = .float x := by
  rw [(Report.read_eq_ok_iff.1 h).2.2.1, Report.secondsOf]
  split
  · exact ⟨_, rfl⟩
  · exact ⟨_, rfl⟩

theorem Result.report_of_ofText (h : Result.ofText raw = .ok r) :
    Report.read raw = .ok r.report := by
  simp only [Result.ofText, bind_eq_ok_iff] at h
  obtain ⟨_, _, report, hreport, _, _, _, _, h⟩ := h
  obtain rfl := Except.ok.inj h
  exact hreport

/-! ## Analyses -/

namespace Analysis

theorem answers_summarize (h : ∃ x, r.report.seconds = .float x) : Answers (summarize r) := by
  obtain ⟨x, hx⟩ := h
  rw [summarize]
  split
  · rw [twoPlaces, hx]
    exact answers_pure _
  · exact answers_ok _

/-- A quotient is given as long as it is within the floating-point numbers. -/
theorem answers_quotient_iff {n d : Int} (hd : d ≠ 0) :
    Answers (quotient n d) ↔ n.natAbs < Binary64.limit * d.natAbs := by
  have hrange := Binary64.ofRatio?_eq_none_iff (decide (n < 0) != decide (d < 0)) n.natAbs
    (Int.natAbs_pos.2 hd)
  rw [← not_iff_not, not_lt, ← hrange, quotient]
  cases Binary64.ofRatio? (decide (n < 0) != decide (d < 0)) n.natAbs d.natAbs <;> simp

theorem answers_failureRate_iff {report : Report} :
    Answers (failureRate report) ↔ (0 < report.serverCalls →
      report.failedServerCalls.natAbs < Binary64.limit * report.serverCalls.natAbs) := by
  rw [failureRate]
  by_cases hcalls : report.serverCalls ≤ 0
  · rw [if_pos hcalls]
    exact iff_of_true (answers_pure _) fun h => absurd h (not_lt.2 hcalls)
  · have hpos : 0 < report.serverCalls := not_le.1 hcalls
    rw [if_neg hcalls, ← answers_quotient_iff hpos.ne', forall_prop_of_true hpos]
    refine answers_bind_of_forall fun rate => ?_
    split <;> exact answers_pure _

/-- Whether something can be looked for in a value: in a text, an array or an object. -/
def Searchable : Json → Prop
  | .str _ | .arr _ | .obj _ => True
  | .null | .bool _ | .num _ => False

theorem answers_occursIn_iff {t : Text} {v : Json} : Answers (occursIn t v) ↔ Searchable v := by
  match v with
  | .str _ | .arr _ | .obj _ | .null | .bool _ | .num (.int _) | .num (.float _) =>
    simp [occursIn, Searchable]

theorem answers_isAction_iff {c : ServerCall} : Answers (isAction c) ↔ Searchable c.url := by
  rw [isAction, answers_bind_iff]
  constructor
  · rintro ⟨b, hb, -⟩
    exact answers_occursIn_iff.1 ⟨b, hb⟩
  · intro h
    obtain ⟨b, hb⟩ := answers_occursIn_iff (t := "/Action").2 h
    refine ⟨b, hb, ?_⟩
    cases b
    · exact answers_occursIn_iff.2 h
    · exact answers_pure _

/-- What a result must be like to be analysed. -/
structure Assessable (r : Result) : Prop where
  /-- The share of failed calls is within the floating-point numbers. -/
  rate : 0 < r.report.serverCalls →
    r.report.failedServerCalls.natAbs < Binary64.limit * r.report.serverCalls.natAbs
  /-- Something can be looked for in each address. -/
  addresses : ∀ c ∈ r.statistics, Searchable c.url

/-- A result with a duration is analysed exactly if it is assessable. -/
theorem answers_ofResult_iff (h : ∃ x, r.report.seconds = .float x) :
    Answers (ofResult r) ↔ Assessable r := by
  have hsteps : Answers (ofResult r) ↔ Answers (summarize r) ∧ Answers (diagnose r) ∧
      Answers (performanceOf r) :=
    answers_bind_iff_and fun _ => answers_bind_iff_and fun _ =>
      answers_bind_of_forall fun _ => answers_pure _
  have hdiagnose : Answers (diagnose r) ↔ Answers (failureRate r.report) :=
    answers_bind_of_forall fun _ => answers_pure _
  have hperformance : Answers (performanceOf r) ↔ ∀ c ∈ r.statistics, Searchable c.url := by
    rw [performanceOf]
    simp only [answers_bind_of_forall fun _ => answers_pure _, answers_filterM_iff,
      answers_isAction_iff]
  rw [hsteps, hdiagnose, hperformance, answers_failureRate_iff]
  exact ⟨fun ⟨_, hrate, haddresses⟩ => ⟨hrate, haddresses⟩,
    fun ha => ⟨answers_summarize h, ha.rate, ha.addresses⟩⟩

end Analysis

open Analysis (Assessable)

namespace OutputReview

/-- An output is reviewed exactly if it is legible and its result is assessable; the statistics are
at fault with the first entry that is not read, if this has a number out of range, and otherwise any
entry that is not read empties them. -/
theorem answers_iff_legible_assessable (raw : Text) :
    (Answers (Result.ofText raw) ↔ Legible raw) ∧
    (∀ r, Result.ofText raw = .ok r → (Answers (Analysis.ofResult r) ↔ Assessable r)) ∧
    (Answers (OutputReview.ofText raw) ↔
      Legible raw ∧ ∀ r, Result.ofText raw = .ok r → Assessable r) ∧
    (∀ f, Statistics.read raw = .error f ↔ Statistics.Overruns (Statistics.entries raw) f) ∧
    (∀ item ∈ Statistics.entries raw, ¬ Answers (Statistics.entry item) →
      Answers (Statistics.read raw) → Statistics.read raw = .ok []) := by
  have hanalysis (r : Result) (hr : Result.ofText raw = .ok r) :
      Answers (Analysis.ofResult r) ↔ Assessable r :=
    Analysis.answers_ofResult_iff (Report.seconds_of_read (Result.report_of_ofText hr))
  refine ⟨Result.answers_ofText_iff, hanalysis, ?_, fun f => Statistics.read_eq_error_iff_overruns,
    fun item hmem hitem => Statistics.read_of_not_answers hmem hitem⟩
  rw [← Result.answers_ofText_iff, OutputReview.ofText, answers_bind_iff]
  simp only [answers_bind_of_forall fun _ => answers_pure _]
  constructor
  · rintro ⟨r, hr, hanswer⟩
    refine ⟨⟨r, hr⟩, fun r' hr' => ?_⟩
    obtain rfl : r = r' := Except.ok.inj (hr.symm.trans hr')
    exact (hanalysis r hr).1 hanswer
  · rintro ⟨⟨r, hr⟩, h⟩
    exact ⟨r, hr, (hanalysis r hr).2 (h r hr)⟩

/-- Statistics of one call with small numbers are read; an entry with an address only empties
them. -/
theorem legible_of_small_numbers :
    Legible "[\x7b\"Url\": \"Orders\", \"Count\": 1, \"Avg\": 9, \"Max\": 9, \"Min\": 9\x7d]" ∧
      Statistics.read "[\x7b\"Url\": \"Orders\"\x7d]" = .ok [] := by
  refine ⟨(answers_iff_legible_assessable _).1.1 (by decide +kernel), ?_⟩
  obtain ⟨item, hmem, hitem⟩ : ∃ item ∈ Statistics.entries "[\x7b\"Url\": \"Orders\"\x7d]",
      ¬ Answers (Statistics.entry item) := by decide +kernel
  exact (answers_iff_legible_assessable _).2.2.2.2 item hmem hitem (by decide +kernel)

/-- An infinite count keeps the result from being read; an address that is missing keeps it from
being analysed. -/
theorem not_answers_infinite_count :
    ¬ Answers (Result.ofText
      "[\x7b\"Url\": \"Orders\", \"Count\": Infinity, \"Avg\": 9, \"Max\": 9, \"Min\": 9\x7d]") ∧
    ¬ Answers (OutputReview.ofText
      "[\x7b\"Url\": null, \"Count\": 1, \"Avg\": 9, \"Max\": 9, \"Min\": 9\x7d]") := by
  decide +kernel

end OutputReview

end ScriptAudit
