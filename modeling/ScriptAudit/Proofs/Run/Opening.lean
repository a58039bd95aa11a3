import ScriptAudit.Proofs.Run.Execution
import ScriptAudit.Proofs.Run.History
import ScriptAudit.Proofs.Textual

/-!
# What a runner and a test must be like

Apart from files that cannot be opened, little keeps a runner from being known and a test from being
executed.

* `Configuration.firstText_eq_error_iff` — where the search for assignments ends with a fault.
* `Configuration.Legible` — the file of assignments that is read is a text.
* `Session.mild_status_iff` and `Session.answers_status_iff` — when the status of the runner is told.
* `Execution.Performable` — the names, the limit and the output of an execution are in order.
* `TestReview.mild_ofRun_iff` — nothing else is needed for a test.
-/

namespace ScriptAudit

open Analysis (Assessable)

/-! ## What is configured -/

namespace Configuration

variable {files : Files} {p q : Path} {ps : List Path} {f : Fault}

/-- A candidate is of no use: it is not there, or it cannot be opened. -/
inductive Passed (files : Files) (p : Path) : Prop
  | absent (h : files.has p = .ok false)
  | closed {fault : FileFault} {path : Text} (h : files.has p = .ok true)
      (hread : files.read p = .error (.file fault path))

/-- A candidate is looked at: all in front of it are of no use. -/
inductive Reached (files : Files) : List Path → Path → Prop
  | head {p : Path} {ps : List Path} : Reached files (p :: ps) p
  | later {p q : Path} {ps : List Path} (hq : Passed files q) (hp : Reached files ps p) :
      Reached files (q :: ps) p

/-- A candidate ends the search with a fault: it cannot be told whether it is there, or it is no
text. -/
inductive Foils (files : Files) (p : Path) : Fault → Prop
  | hidden {f : Fault} (h : files.has p = .error f) : Foils files p f
  | garbled {bytes : Bytes} {defect : Utf8.Malformed} (h : files.has p = .ok true)
      (hread : files.read p = .ok bytes) (hdecode : Utf8.decode bytes = .error defect) :
      Foils files p (.malformedText defect)

theorem reached_cons_of_passed (hq : Passed files q) :
    Reached files (q :: ps) p ↔ p = q ∨ Reached files ps p := by
  constructor
  · rintro (_ | ⟨_, hp⟩)
    · exact Or.inl rfl
    · exact Or.inr hp
  · rintro (rfl | hp)
    · exact .head
    · exact .later hq hp

theorem reached_cons_of_not_passed (hq : ¬ Passed files q) :
    Reached files (q :: ps) p ↔ p = q := by
  constructor
  · rintro (_ | ⟨h, _⟩)
    · rfl
    · exact absurd h hq
  · rintro rfl
    exact .head

theorem not_foils_of_passed (hp : Passed files p) : ¬ Foils files p f := by
  rintro (h | ⟨h, hread, -⟩)
  · obtain h' | ⟨h', -⟩ := hp <;> cases h.symm.trans h'
  · obtain h' | ⟨-, hread'⟩ := hp
    · cases h.symm.trans h'
    · cases hread.symm.trans hread'

theorem firstText_of_passed (hp : Passed files p) :
    firstText files (p :: ps) = firstText files ps := by
  rw [firstText]
  obtain h | ⟨h, hread⟩ := hp
  · rw [h]
    rfl
  · rw [h, Files.readText, hread]
    rfl

theorem foils_iff_of_hidden {x : Fault} (hhas : files.has p = .error x) :
    Foils files p f ↔ x = f := by
  constructor
  · rintro (h | ⟨h, -⟩)
    · exact Except.error.inj (hhas.symm.trans h)
    · cases hhas.symm.trans h
  · rintro rfl
    exact .hidden hhas

theorem foils_iff_of_read {bytes : Bytes} (hhas : files.has p = .ok true)
    (hread : files.read p = .ok bytes) :
    Foils files p f ↔ ∃ defect, Utf8.decode bytes = .error defect ∧ .malformedText defect = f := by
  constructor
  · rintro (h | ⟨-, hread', hdecode⟩)
    · cases hhas.symm.trans h
    · obtain rfl := Except.ok.inj (hread.symm.trans hread')
      exact ⟨_, hdecode, rfl⟩
  · rintro ⟨defect, hdecode, rfl⟩
    exact .garbled hhas hread hdecode

/-- A candidate that is not passed over decides alone. -/
theorem firstText_eq_error_iff_foils (hp : ¬ Passed files p) :
    firstText files (p :: ps) = .error f ↔ Foils files p f := by
  rw [firstText]
  cases hhas : files.has p with
  | error x =>
    rw [foils_iff_of_hidden hhas]
    exact ⟨Except.error.inj, congrArg Except.error⟩
  | ok there =>
    cases there with
    | false => exact absurd (.absent hhas) hp
    | true =>
      have hopen : Mild (files.read p) := Files.mild_read (Files.hasNull_of_has hhas)
      cases hread : files.read p with
      | error x =>
        -- a file that cannot be opened is passed over
        obtain ⟨fault, path, rfl⟩ := hopen x hread
        exact absurd (.closed hhas hread) hp
      | ok bytes =>
        rw [foils_iff_of_read hhas hread, Files.readText_of_read hread]
        cases Utf8.decode bytes with
        | ok t =>
          constructor
          · rintro ⟨⟩
          · rintro ⟨_, ⟨⟩, -⟩
        | error defect =>
          constructor
          · intro h
            exact ⟨defect, rfl, Except.error.inj h⟩
          · rintro ⟨_, ⟨⟩, rfl⟩
            rfl

/-- **Where the search for assignments fails**: at the first candidate that is of use. -/
theorem firstText_eq_error_iff :
    firstText files ps = .error f ↔ ∃ p, Reached files ps p ∧ Foils files p f := by
  induction ps with
  | nil =>
    constructor
    · rintro ⟨⟩
    · rintro ⟨p, ⟨⟩, -⟩
  | cons p ps ih =>
    by_cases hp : Passed files p
    · simp only [firstText_of_passed hp, ih, reached_cons_of_passed hp, or_and_right, exists_or,
        exists_eq_left, not_foils_of_passed hp, false_or]
    · simp only [firstText_eq_error_iff_foils hp, reached_cons_of_not_passed hp, exists_eq_left]

/-- Every candidate that is read is a text. -/
def Legible (files : Files) (ps : List Path) : Prop :=
  ∀ p, Reached files ps p → files.has p = .ok true → ∀ bytes, files.read p = .ok bytes →
    Answers (Utf8.decode bytes)

theorem mild_firstText_iff : Mild (firstText files ps) ↔ Legible files ps := by
  constructor
  · intro h p hreached hhas bytes hread
    rw [answers_iff_forall]
    intro defect hdecode
    obtain ⟨_, _, heq⟩ := h _
      (firstText_eq_error_iff.2 ⟨p, hreached, .garbled hhas hread hdecode⟩)
    cases heq
  · intro h f hf
    obtain ⟨p, hreached, hhidden | ⟨hhas, hread, hdecode⟩⟩ := firstText_eq_error_iff.1 hf
    · exact Files.mild_has files p f hhidden
    · exact absurd hdecode (answers_iff_forall.1 (h p hreached hhas _ hread) _)

theorem answers_firstText_iff : Answers (firstText files ps) ↔
    Legible files ps ∧ ∀ p, Reached files ps p → Answers (files.has p) := by
  rw [← mild_firstText_iff]
  constructor
  · intro h
    refine ⟨.of_answers h, fun p hreached => answers_iff_forall.2 fun f hf => ?_⟩
    exact answers_iff_forall.1 h f (firstText_eq_error_iff.2 ⟨p, hreached, .hidden hf⟩)
  · rintro ⟨hmild, hhas⟩
    rw [answers_iff_forall]
    intro f hf
    obtain ⟨fault, path, rfl⟩ := hmild f hf
    obtain ⟨p, hreached, hhidden⟩ := firstText_eq_error_iff.1 hf
    cases hhidden with
    | hidden h => exact answers_iff_forall.1 (hhas p hreached) _ h

end Configuration

/-! ## The status of the runner -/

namespace Runner

variable (files : Files) (r : Runner)

theorem mild_interpreterProblem : Mild (interpreterProblem files r.path) := by
  rw [interpreterProblem]
  split
  · exact .of_ok _
  · refine (Mild.bind_iff_of_forall fun found => ?_).2 (Files.mild_has files _)
    cases found <;> exact answers_pure _

/-- What has to be mended can be told, unless the system refuses to look for the interpreter. -/
theorem mild_problems : Mild (r.problems files) :=
  (Mild.bind_iff_of_forall fun _ => answers_pure _).2 (mild_interpreterProblem files r)

theorem answers_problems_iff :
    Answers (r.problems files) ↔ (r.path ≠ [] → Answers (files.has (Path.ofText r.path))) := by
  have hsteps : Answers (r.problems files) ↔ Answers (interpreterProblem files r.path) :=
    answers_bind_of_forall fun _ => answers_pure _
  rw [hsteps, interpreterProblem]
  by_cases hpath : r.path = []
  · rw [if_pos (List.isEmpty_iff.2 hpath)]
    exact iff_of_true (answers_pure _) fun h => absurd hpath h
  · rw [if_neg fun h => hpath (List.isEmpty_iff.1 h), forall_prop_of_true hpath]
    refine answers_bind_of_forall fun found => ?_
    cases found <;> exact answers_pure _

end Runner

namespace Session

variable (s : Session)

/-- The files that may hold assignments at present. -/
def sources : List Path := Configuration.candidates s.environment s.project

/-- It is known what is configured, where the assignments that are found are a text. -/
theorem mild_configured_iff : Mild s.configured ↔ Configuration.Legible s.files s.sources :=
  (Mild.bind_iff_of_forall fun _ => answers_pure _).trans
    ((Mild.bind_iff_of_forall fun _ => answers_pure _).trans Configuration.mild_firstText_iff)

theorem answers_configured_iff : Answers s.configured ↔
    Configuration.Legible s.files s.sources ∧
      ∀ p, Configuration.Reached s.files s.sources p → Answers (s.files.has p) :=
  (answers_bind_of_forall fun _ => answers_pure _).trans
    ((answers_bind_of_forall fun _ => answers_pure _).trans Configuration.answers_firstText_iff)

theorem mild_current_iff :
    Mild s.current ↔ (s.runner = none → Configuration.Legible s.files s.sources) := by
  rw [current]
  cases s.runner with
  | some r => exact iff_of_true (.of_ok _) fun h => absurd h (Option.some_ne_none r)
  | none =>
    rw [forall_prop_of_true rfl, ← mild_configured_iff]
    exact Mild.map_iff

theorem answers_current_iff : Answers s.current ↔ (s.runner = none → Answers s.configured) := by
  rw [current]
  cases s.runner with
  | some r => exact iff_of_true (answers_ok _) fun h => absurd h (Option.some_ne_none r)
  | none =>
    rw [forall_prop_of_true rfl]
    exact answers_map_iff

/-- What is configured has been read where there is no current runner. -/
theorem answers_configured_of_current_eq_none (h : s.current = .ok none) :
    Answers s.configured := by
  refine s.answers_current_iff.1 ⟨_, h⟩ ?_
  rw [current] at h
  split at h
  · cases h
  · assumption

/-- **When the status is told**, or at least a file is blamed. -/
theorem mild_status_iff : Mild (s.current >>= s.settled.status) ↔
    (s.runner = none → Configuration.Legible s.files s.sources) := by
  rw [Mild.bind_iff, mild_current_iff, and_iff_left]
  intro r? hr
  cases r? with
  | some r => exact Mild.map_iff.2 (r.mild_problems s.files)
  | none =>
    exact Mild.map_iff.2 (Mild.of_answers (s.answers_configured_of_current_eq_none hr))

/-- When the status is told. -/
theorem answers_status_iff : Answers (s.current >>= s.settled.status) ↔
    (s.runner = none → Answers s.configured) ∧
      ∀ r, s.current = .ok (some r) → r.path ≠ [] → Answers (s.files.has (Path.ofText r.path)) := by
  rw [answers_bind_iff]
  constructor
  · rintro ⟨r?, hr, h⟩
    refine ⟨s.answers_current_iff.1 ⟨r?, hr⟩, fun r hr' => ?_⟩
    obtain rfl := Except.ok.inj (hr.symm.trans hr')
    exact (r.answers_problems_iff s.files).1 (answers_map_iff.1 h)
  · rintro ⟨hconfigured, hproblems⟩
    obtain ⟨r?, hr⟩ := s.answers_current_iff.2 hconfigured
    refine ⟨r?, hr, ?_⟩
    cases r? with
    | some r => exact answers_map_iff.2 ((r.answers_problems_iff s.files).2 (hproblems r hr))
    | none => exact answers_map_iff.2 (s.answers_configured_of_current_eq_none hr)

end Session

/-! ## Executions -/

namespace Execution

variable {files : Files} {r : Runner} {t : TestRun}

/-- What an invocation must be like for the system to be asked to start a program. -/
structure Startable (files : Files) (i : Invocation) : Prop where
  /-- The character with the number zero is not handed on. -/
  hasNull_eq_false : ∀ a ∈ i.executable :: i.arguments, Path.hasNull a = false
  /-- A program that is started is waited for; the limit is one that can be measured. -/
  limit : ∀ f, files.executableNode i = .ok (.file f) → f.executable = true →
    f.program ≠ none → i.limit.toFloat? ≠ none

/-- What a test must be like to be executed, or to fail for a reason that its result tells. -/
structure Performable (files : Files) (r : Runner) (t : TestRun) : Prop where
  /-- If an interpreter is there, then the path of the test is the name of something. -/
  hasNull_eq_false : r.path ≠ [] → files.has (Path.ofText r.path) = .ok true →
    Path.hasNull t.file = false
  start : ∀ i, prepare files r t = .ok (.ok i) → Startable files i
  /-- An output that is taken apart can be reviewed. -/
  output : ∀ i o text, prepare files r t = .ok (.ok i) → files.launch i = .ok o →
    outputOf i o = .ok text →
    Legible text ∧ ∀ result, Result.ofText text = .ok result → Assessable result

theorem mild_prepare_iff : Mild (prepare files r t) ↔
    (r.path ≠ [] → files.has (Path.ofText r.path) = .ok true → Path.hasNull t.file = false) := by
  rw [prepare]
  by_cases hpath : r.path = []
  · rw [if_pos (List.isEmpty_iff.2 hpath)]
    exact iff_of_true (.of_ok _) fun h => absurd hpath h
  · rw [if_neg fun h => hpath (List.isEmpty_iff.1 h), forall_prop_of_true hpath]
    refine Mild.bind_iff.trans ((and_iff_right (Files.mild_has files _)).trans ?_)
    rw [Bool.forall_bool]
    refine (and_iff_right fun _ => .of_ok _).trans (forall_congr' fun hhas => ?_)
    cases hnull : Path.hasNull t.file with
    | true => exact iff_of_false (Mild.not_error rfl) Bool.noConfusion
    | false =>
      refine iff_of_true ((Mild.bind_iff_of_forall fun found => ?_).2 (files.mild_hasFile _)) rfl
      cases found <;> exact answers_pure _

theorem mild_launch_iff (i : Invocation) : Mild (files.launch i) ↔ Startable files i := by
  have hiff : Startable files i ↔ (i.executable :: i.arguments).any Path.hasNull = false ∧
      ∀ f, files.executableNode i = .ok (.file f) → f.executable = true → f.program ≠ none →
        i.limit.toFloat? ≠ none := by
    rw [List.any_eq_false]
    simp only [Bool.not_eq_true]
    exact ⟨fun h => ⟨h.hasNull_eq_false, h.limit⟩, fun h => ⟨h.1, h.2⟩⟩
  rw [hiff, Files.launch]
  cases (i.executable :: i.arguments).any Path.hasNull with
  | true => exact iff_of_false (Mild.not_error rfl) fun h => Bool.noConfusion h.1
  | false =>
    rw [and_iff_right rfl]
    cases files.executableNode i with
    | error =>
      refine iff_of_true (.of_ok _) ?_
      rintro f ⟨⟩
    | ok n =>
      cases n with
      | directory =>
        refine iff_of_true (.of_ok _) ?_
        rintro f ⟨⟩
      | file f =>
        simp only [Except.ok.injEq, Node.file.injEq, forall_eq']
        cases f.executable with
        | false => exact iff_of_true (.of_ok _) fun h => absurd h Bool.false_ne_true
        | true =>
          cases f.program with
          | none => exact iff_of_true (.of_ok _) fun _ h => absurd rfl h
          | some program =>
            cases i.limit.toFloat? with
            | none =>
              exact iff_of_false (Mild.not_error rfl) fun h => h rfl (Option.some_ne_none _) rfl
            | some limit => exact iff_of_true (.of_ok _) fun _ _ => Option.some_ne_none limit

/-- What is said about a test without output. -/
theorem answers_ofResult_failed (message file : Text) (timedOut : Bool) :
    Answers (Analysis.ofResult (.failed message file timedOut)) :=
  (Analysis.answers_ofResult_iff ⟨_, rfl⟩).2 ⟨nofun, nofun⟩

/-- An output is taken apart and assessed. -/
theorem mild_conclude_iff {file : Text} {e : Except Hindrance Text} :
    Mild (conclude file e >>= fun result => (Analysis.ofResult result).map (TestReview.mk result)) ↔
      ∀ text, e = .ok text →
        Legible text ∧ ∀ result, Result.ofText text = .ok result → Assessable result := by
  cases e with
  | error h =>
    constructor
    · rintro - text ⟨⟩
    · intro _
      exact .of_answers (answers_map_iff.2 (answers_ofResult_failed h.message file h.isTimeout))
  | ok text =>
    simp only [Except.ok.injEq, forall_eq']
    exact Analysis.mild_assess_iff

/-- The duration of a test is a floating-point number. -/
theorem seconds_of_perform {launch : Invocation → Except Fault Outcome} {result : Result}
    (h : perform files launch r t = .ok result) : ∃ x, result.report.seconds = .float x := by
  have hconclude {e : Except Hindrance Text} (h : conclude t.file e = .ok result) :
      ∃ x, result.report.seconds = .float x := by
    cases e with
    | error =>
      obtain rfl := Except.ok.inj h
      exact ⟨_, rfl⟩
    | ok text => exact Report.seconds_of_read (Result.report_of_ofText h)
  obtain ⟨e, he, -⟩ := bind_eq_ok_iff.1 h
  cases e with
  | error => exact hconclude (perform_of_error he ▸ h)
  | ok i =>
    obtain ⟨o, -, ho⟩ := bind_eq_ok_iff.1 (perform_of_ok he ▸ h)
    exact hconclude ho

end Execution

open Execution

/-- **When a test is executed**, or fails for a reason that its result tells. -/
theorem TestReview.mild_ofRun_iff {files : Files} {r : Runner} {t : TestRun} :
    Mild (ofRun files r t) ↔ Performable files r t := by
  have hsteps : ofRun files r t = perform files files.launch r t >>= fun result =>
      (Analysis.ofResult result).map (TestReview.mk result) := rfl
  rw [hsteps]
  cases he : prepare files r t with
  | error f =>
    have hmild : Mild (.error f : Except Fault TestReview) ↔ Mild (prepare files r t) := by
      rw [he, Mild.error_iff, Mild.error_iff]
    rw [perform, he]
    refine hmild.trans (mild_prepare_iff.trans ⟨fun h => ⟨h, ?_, ?_⟩, (·.hasNull_eq_false)⟩)
    · rintro i hi
      cases he.symm.trans hi
    · rintro i o text hi
      cases he.symm.trans hi
  | ok e =>
    have hnull := mild_prepare_iff.1 (he ▸ Mild.of_ok e)
    cases e with
    | error h =>
      rw [perform_of_error he, mild_conclude_iff]
      refine iff_of_true ?_ ⟨hnull, ?_, ?_⟩
      · rintro text ⟨⟩
      · rintro i hi
        cases he.symm.trans hi
      · rintro i o text hi
        cases he.symm.trans hi
    | ok i =>
      rw [perform_of_ok he, bind_assoc, Mild.bind_iff, mild_launch_iff]
      simp only [mild_conclude_iff]
      constructor
      · rintro ⟨hstart, houtput⟩
        refine ⟨hnull, ?_, ?_⟩
        · rintro i' hi
          cases he.symm.trans hi
          exact hstart
        · rintro i' o text hi ho
          cases he.symm.trans hi
          exact houtput o ho text
      · intro h
        exact ⟨h.start i he, fun o ho text => h.output i o text he ho⟩

end ScriptAudit
