import ScriptAudit.Proofs.CommandLine.Answer
import ScriptAudit.Proofs.Run.Opening
import ScriptAudit.Proofs.Suite

/-!
# Which tasks are carried out

A task that is not carried out fails because of a file, unless something else is wrong with what it
reads or executes.

* `Suite.Reached` — a file is reviewed, also where a sweep stops early.
* `Session.Offers` and `Session.Executes` — what a text and a test must be like.
* `CommandLine.Task.Manageable` — what a task needs.
* `CommandLine.ends_perform` — no task needs anything else, and no task ends in another way than as
  a success or a failure.
-/

namespace ScriptAudit

open Analysis (Assessable)

/-! ## Suites -/

theorem FileReview.textual_ofFile [Yaml.Loader] [Yaml.LawfulLoader] (files : Files) (strict : Bool)
    (path : Text) : Textual (ofFile files strict path) := by
  rw [ofFile]
  split
  · exact (Review.textual_ofText strict _).bind fun _ => .of_pure _
  · exact .of_error rfl
  · exact .of_ok _

namespace Suite

variable {files : Files} {stop : Bool} {p q : Text} {ps : List Text}

/-- A sweep goes on after a file. -/
def GoesOn [Yaml.Loader] (files : Files) (stop : Bool) (p : Text) : Prop :=
  stop = true → ∃ r, FileReview.ofFile files true p = .ok r ∧ (Entry.ofReview p r).valid = true

/-- A sweep comes to a file. -/
inductive Reached [Yaml.Loader] (files : Files) (stop : Bool) : List Text → Text → Prop
  | head {p : Text} {ps : List Text} : Reached files stop (p :: ps) p
  | later {p q : Text} {ps : List Text} (hq : GoesOn files stop q)
      (hp : Reached files stop ps p) : Reached files stop (q :: ps) p

theorem forall_reached_cons_iff [Yaml.Loader] {P : Text → Prop} :
    (∀ p, Reached files stop (q :: ps) p → P p) ↔
      P q ∧ (GoesOn files stop q → ∀ p, Reached files stop ps p → P p) := by
  constructor
  · intro h
    exact ⟨h q .head, fun hq p hp => h p (.later hq hp)⟩
  · rintro ⟨hhead, hlater⟩ p (_ | ⟨hq, hp⟩)
    · exact hhead
    · exact hlater hq p hp

theorem textual_sweep [Yaml.Loader] [Yaml.LawfulLoader] (files : Files) (stop : Bool)
    (ps : List Text) : Textual (sweep files stop ps) := by
  induction ps with
  | nil => exact .of_ok []
  | cons p ps ih =>
    refine (FileReview.textual_ofFile files true p).bind fun r => ?_
    dsimp only
    split
    · exact .of_pure _
    · exact Textual.bind ih fun _ => .of_pure _

/-- A sweep comes to its end where the files have reviews to which it comes. -/
theorem answers_sweep_iff_reached [Yaml.Loader] :
    Answers (sweep files stop ps) ↔ ∀ p, Reached files stop ps p → files.Reviewable p := by
  induction ps with
  | nil =>
    refine iff_of_true (answers_ok []) ?_
    rintro p ⟨⟩
  | cons q ps ih =>
    rw [forall_reached_cons_iff, ← ih, ← FileReview.answers_ofFile_iff true, sweep,
      answers_bind_iff]
    cases hq : FileReview.ofFile files true q with
    | error f =>
      refine iff_of_false ?_ fun h => not_answers_error f h.1
      rintro ⟨_, ⟨⟩, -⟩
    | ok r =>
      simp only [Except.ok.injEq, exists_eq_left', answers_ok, true_and]
      have hgoes : GoesOn files stop q ↔ ¬ (stop && !(Entry.ofReview q r).valid) = true := by
        rw [GoesOn, hq]
        simp only [Except.ok.injEq, exists_eq_left']
        cases stop <;> simp
      rw [hgoes]
      split
      · next hstops => exact iff_of_true (answers_pure _) fun h => absurd hstops h
      · next hstops =>
        rw [forall_prop_of_true hstops]
        exact answers_bind_of_forall fun _ => answers_pure _

theorem mild_testFiles {directory : Text} (recursive : Bool)
    (h : files.hasDirectory (Path.ofText directory) = .ok true) :
    Mild (testFiles files recursive directory) := by
  refine (Mild.bind_iff_of_forall fun _ => answers_pure _).2 ?_
  obtain ⟨entries, hentries⟩ := Files.exists_entries_of_hasDirectory h
  cases recursive with
  | true =>
    refine (Mild.bind_iff_of_forall fun n? => ?_).2 (Files.mild_node? files _)
    split <;> exact answers_pure _
  | false =>
    rw [Files.filesIn, hentries]
    exact .of_ok _

end Suite

theorem SuiteReview.mild_ofDirectory_iff [Yaml.Loader] [Yaml.LawfulLoader] {files : Files}
    {recursive stop : Bool} {directory : Text} :
    Mild (ofDirectory files recursive stop directory) ↔
      (files.hasDirectory (Path.ofText directory) = .ok true →
        ∀ tests, Suite.testFiles files recursive directory = .ok tests →
          ∀ p, Suite.Reached files stop tests p → files.Reviewable p) := by
  rw [ofDirectory, Mild.bind_iff, and_iff_right (files.mild_hasDirectory _), Bool.forall_bool]
  refine (and_iff_right fun _ => .of_ok _).trans (forall_congr' fun hdirectory => ?_)
  -- the documents of a directory that is there can be listed, so that the sweep alone decides
  refine Mild.bind_iff.trans ((and_iff_right (Suite.mild_testFiles recursive hdirectory)).trans ?_)
  refine forall_congr' fun tests => forall_congr' fun _ => ?_
  rw [← Suite.answers_sweep_iff_reached, ← (Suite.textual_sweep files stop tests).mild_iff]
  exact Mild.bind_iff_of_forall fun _ => answers_pure _

/-! ## What is read and what is executed -/

namespace Session

variable {s : Session} {input : Bytes} {file : Text} {P : Text → Prop}

/-- The bytes of a file, or those of the standard input. -/
def given (s : Session) (input : Bytes) (file : Text) : Except Fault Bytes :=
  if file = ['-'] then .ok input else s.files.read (Path.ofText file)

/-- The text of a file, with uniform line ends, or that of the standard input. -/
def textOf (s : Session) (input : Bytes) (file : Text) : Except Fault Text :=
  if file = ['-'] then (Utf8.decode input).mapError .malformedText
  else s.files.readText (Path.ofText file)

theorem run_inputText (input : Bytes) (file : Text) (s : Session) :
    (CommandLine.inputText input file).run.run s = (s.textOf input file, s) := by
  rw [CommandLine.inputText, textOf]
  split_ifs <;> rfl

/-- What is to be read has a name, is a text if it can be opened, and is as it should be. -/
structure Offers (s : Session) (input : Bytes) (file : Text) (P : Text → Prop) : Prop where
  hasNull_eq_false : file ≠ ['-'] → Path.hasNull (Path.ofText file).text = false
  decoded : ∀ bytes, s.given input file = .ok bytes → Answers (Utf8.decode bytes)
  text : ∀ t, s.textOf input file = .ok t → P t

theorem mild_textOf_iff : Mild (s.textOf input file) ↔
    (file ≠ ['-'] → Path.hasNull (Path.ofText file).text = false) ∧
      ∀ bytes, s.given input file = .ok bytes → Answers (Utf8.decode bytes) := by
  rw [textOf, given]
  by_cases h : file = ['-']
  · rw [if_pos h, if_pos h, and_iff_right fun hne => absurd h hne]
    simp only [Except.ok.injEq, forall_eq']
    cases Utf8.decode input with
    | ok t => exact iff_of_true (.of_ok t) (answers_ok t)
    | error defect => exact iff_of_false (Mild.not_error rfl) (not_answers_error defect)
  · rw [if_neg h, if_neg h, Files.mild_readText_iff, forall_prop_of_true h]

theorem mild_textOf_bind_iff {α : Type} {g : Text → Except Fault α} (hg : ∀ t, Mild (g t) ↔ P t) :
    Mild (s.textOf input file >>= g) ↔ s.Offers input file P := by
  rw [Mild.bind_iff, mild_textOf_iff]
  simp only [hg]
  exact ⟨fun ⟨⟨hname, hdecoded⟩, htext⟩ => ⟨hname, hdecoded, htext⟩,
    fun h => ⟨⟨h.hasNull_eq_false, h.decoded⟩, h.text⟩⟩

/-- What is needed to execute a test with the current runner. -/
structure Executes (s : Session) (t : TestRun) : Prop where
  legible : s.runner = none → Configuration.Legible s.files s.sources
  performable : ∀ r, s.current = .ok (some r) → Execution.Performable s.files r t

theorem mild_review_iff {t : TestRun} :
    Mild (s.current >>= s.settled.review t) ↔ s.Executes t := by
  rw [Mild.bind_iff, mild_current_iff]
  constructor
  · rintro ⟨hlegible, hreview⟩
    exact ⟨hlegible, fun r hr => TestReview.mild_ofRun_iff.1 (Mild.map_iff.1 (hreview _ hr))⟩
  · intro h
    refine ⟨h.legible, fun r? hr => ?_⟩
    cases r? with
    | none => exact .of_ok _
    | some r => exact Mild.map_iff.2 (TestReview.mild_ofRun_iff.2 (h.performable r hr))

/-- The duration of a test that is executed is a floating-point number. -/
theorem seconds_of_review {t : TestRun} {r : TestReview}
    (h : (s.current >>= s.settled.review t) = .ok (some r)) :
    ∃ x, r.result.report.seconds = .float x := by
  obtain ⟨r?, -, h⟩ := bind_eq_ok_iff.1 h
  cases r? with
  | none => cases h
  | some runner =>
    obtain ⟨r', hr', heq⟩ := map_eq_ok_iff.1 h
    obtain ⟨result, hresult, h⟩ := bind_eq_ok_iff.1 hr'
    obtain ⟨_, -, h⟩ := bind_eq_ok_iff.1 h
    cases heq
    cases h
    exact Execution.seconds_of_perform hresult

end Session

/-! ## Tasks -/

namespace CommandLine

namespace Task

/-- The runner that a task names. -/
def named? (interpreter url user password : Option Text) (timeout : Option Number) :
    Option Runner :=
  (interpreter.filter (!·.isEmpty)).map fun path =>
    Runner.ofParts path (url.getD []) (user.getD []) (password.getD []) timeout

/-- What a task needs to be carried out, or else to fail because of a file. -/
def Manageable [Yaml.Loader] (s : Session) (input : Bytes) : Task → Prop
  | validate file _ => s.files.Reviewable file
  | validateSuite directory recursive stop =>
    s.files.hasDirectory (Path.ofText directory) = .ok true →
      ∀ tests, Suite.testFiles s.files recursive directory = .ok tests →
        ∀ p, Suite.Reached s.files stop tests p → s.files.Reviewable p
  | checkPhases file | checkCommands file =>
    s.Offers input file fun t => Answers (Document.read t)
  | rules => True
  | run file interpreter url user password timeout further =>
    match named? interpreter url user password timeout with
    | none => s.Executes ⟨file, url, user, password, further, timeout⟩
    | some r => r.problems s.files = .ok [] →
      Execution.Performable s.files r ⟨file, url, user, password, further, timeout⟩
  | analyze file =>
    s.Offers input file fun t => Legible t ∧ ∀ r, Result.ofText t = .ok r → Assessable r
  | runnerStatus => s.runner = none → Configuration.Legible s.files s.sources

end Task

/-- What comes of a task: a success or a failure, or else a file is blamed under a condition. -/
structure Ends (e : Except Fault Answer) (P : Prop) : Prop where
  exit_le : ∀ a, e = .ok a → a.exit ≤ 1
  mild_iff : Mild e ↔ P

namespace Ends

variable {α : Type} {e : Except Fault α} {P : Prop}

theorem of_map {g : α → Answer} (hg : ∀ x, (g x).exit ≤ 1) (h : Mild e ↔ P) :
    Ends (e.map g) P where
  exit_le := by
    rintro _ ha
    obtain ⟨x, -, rfl⟩ := map_eq_ok_iff.1 ha
    exact hg x
  mild_iff := Mild.map_iff.trans h

theorem of_ok {a : Answer} (h : a.exit ≤ 1) (hP : P) : Ends (.ok a) P where
  exit_le := by
    rintro _ ⟨⟩
    exact h
  mild_iff := iff_of_true (.of_ok a) hP

end Ends

theorem Answer.exit_lines_le (success : Bool) (ls : List Text) : (lines success ls).exit ≤ 1 := by
  cases success <;> simp [lines]

theorem Answer.exit_inFormat_le (f : Format) (success : Bool) (v : Json) (ls : List Text) :
    (inFormat f success v ls).exit ≤ 1 := by
  cases f <;> exact exit_lines_le success _

variable {s : Session} {f : Format} {input : Bytes}

/-- A task that reads a text. -/
theorem ends_of_given {α : Type} {file : Text} {read : Text → Except Fault α} {g : α → Answer}
    {P : Text → Prop} (hg : ∀ x, (g x).exit ≤ 1) (htextual : ∀ t, Textual (read t))
    (hread : ∀ t, Answers (read t) ↔ P t) :
    Ends ((inputText input file >>= fun t => Session.ask (fun _ => read t) >>= fun x =>
      pure (g x)).run.run s).1 (s.Offers input file P) := by
  have hrun : ((inputText input file >>= fun t => Session.ask (fun _ => read t) >>= fun x =>
      pure (g x)).run.run s).1 = (s.textOf input file >>= read).map g := by
    rw [Session.run_bind, Session.run_inputText]
    cases s.textOf input file with
    | error => rfl
    | ok t => exact congrArg Prod.fst (Session.run_bind_pure _ g s)
  rw [hrun]
  exact .of_map hg (Session.mild_textOf_bind_iff fun t => (htextual t).mild_iff.trans (hread t))

/-- The answer to the review of a file. -/
def reviewAnswer (f : Format) (file : Text) : FileReview → Answer
  | .unreadable fault => .failure (FileReview.complaint fault)
  | .reviewed r => .inFormat f r.isValid (FileReview.json file (.reviewed r)) (reviewLines file r)

theorem ends_validate [Yaml.Loader] [Yaml.LawfulLoader] (file : Text) (errorsOnly : Bool) :
    Ends ((perform f input (.validate file errorsOnly)).run.run s).1 (s.files.Reviewable file) := by
  have hrun : ((perform f input (.validate file errorsOnly)).run.run s).1 =
      (FileReview.ofFile s.files (!errorsOnly) file).map (reviewAnswer f file) := by
    change (FileReview.ofFile s.files (!errorsOnly) file >>= _) = _
    rcases FileReview.ofFile s.files (!errorsOnly) file with x | (r | x) <;> rfl
  rw [hrun]
  refine .of_map (fun r => ?_) ((FileReview.textual_ofFile _ _ _).mild_iff.trans
    (FileReview.answers_ofFile_iff _))
  cases r with
  | unreadable => exact Nat.le_refl 1
  | reviewed r => exact Answer.exit_inFormat_le _ _ _ _

/-- The answer to the review of a directory. -/
def suiteAnswer (f : Format) (directory : Text) : Option SuiteReview → Answer
  | none => .failure (SuiteReview.noDirectory directory)
  | some r => .inFormat f (r.invalid = 0) r.json (suiteLines r)

theorem ends_validateSuite [Yaml.Loader] [Yaml.LawfulLoader] (directory : Text)
    (recursive stop : Bool) :
    Ends ((perform f input (.validateSuite directory recursive stop)).run.run s).1
      (Task.Manageable s input (.validateSuite directory recursive stop)) := by
  have hrun : ((perform f input (.validateSuite directory recursive stop)).run.run s).1 =
      (SuiteReview.ofDirectory s.files recursive stop directory).map (suiteAnswer f directory) := by
    change (SuiteReview.ofDirectory s.files recursive stop directory >>= _) = _
    rcases SuiteReview.ofDirectory s.files recursive stop directory with x | (_ | r) <;> rfl
  rw [hrun]
  refine .of_map (fun r? => ?_) SuiteReview.mild_ofDirectory_iff
  cases r? with
  | none => exact Nat.le_refl 1
  | some r => exact Answer.exit_inFormat_le _ _ _ _

/-- The lines about an execution are there, since its duration is a floating-point number. -/
theorem answers_testLines {t : TestReview} (h : ∃ x, t.result.report.seconds = .float x) :
    Answers (testLines t) := by
  obtain ⟨x, hx⟩ := h
  rw [testLines, hx]
  exact answers_pure _

/-- What is left to do once it is known what comes of a test. -/
def executionRequest (f : Format) : Option TestReview → Request Answer
  | none => return .failure TestReview.noRunner
  | some t => do
    let ls ← Session.ask fun _ => if f = .text then testLines t else return []
    return .inFormat f t.result.success t.json ls

/-- The answer to the execution of a test. -/
def executionAnswer (f : Format) : Option TestReview → Except Fault Answer
  | none => .ok (.failure TestReview.noRunner)
  | some t =>
    (if f = .text then testLines t else .ok []).map (.inFormat f t.result.success t.json)

theorem run_executionRequest (f : Format) (r? : Option TestReview) (s : Session) :
    (executionRequest f r?).run.run s = (executionAnswer f r?, s) := by
  cases r? with
  | none => rfl
  | some r => exact Session.run_bind_pure _ _ s

/-- The execution of a test with the current runner. -/
theorem ends_execute (t : TestRun) :
    Ends ((Session.execute t >>= executionRequest f).run.run s).1 (s.Executes t) := by
  have hrun : ((Session.execute t >>= executionRequest f).run.run s).1 =
      s.current >>= s.settled.review t >>= executionAnswer f := by
    rw [Session.run_bind, Session.run_execute]
    cases s.current >>= s.settled.review t with
    | error => rfl
    | ok r? => exact congrArg Prod.fst (run_executionRequest f r? s.settled)
  rw [hrun]
  constructor
  · rintro a ha
    obtain ⟨r?, -, ha⟩ := bind_eq_ok_iff.1 ha
    cases r? with
    | none =>
      cases ha
      exact Nat.le_refl 1
    | some r =>
      obtain ⟨ls, -, rfl⟩ := map_eq_ok_iff.1 ha
      exact Answer.exit_inFormat_le _ _ _ _
  · rw [Mild.bind_iff, Session.mild_review_iff, and_iff_left]
    rintro (_ | r) hr
    · exact .of_ok _
    · refine .of_answers (answers_map_iff.2 ?_)
      split_ifs
      · exact answers_testLines (Session.seconds_of_review hr)
      · exact answers_ok _

/-- A runner is named, or the current one stays. -/
theorem run_replaceRunner (interpreter url user password : Option Text)
    (timeout : Option Number) (s : Session) :
    (replaceRunner interpreter url user password timeout).run.run s =
      match Task.named? interpreter url user password timeout with
      | none => (.ok [], s)
      | some r => (r.problems s.files, { s with runner := some r }) := by
  rw [replaceRunner, Task.named?]
  cases interpreter.filter (!·.isEmpty) <;> rfl

theorem ends_run [Yaml.Loader] [Yaml.LawfulLoader] (file : Text)
    (interpreter url user password : Option Text) (timeout : Option Number) (further : List Text) :
    Ends ((perform f input (.run file interpreter url user password timeout further)).run.run s).1
      (Task.Manageable s input (.run file interpreter url user password timeout further)) := by
  rw [perform, Session.run_bind, run_replaceRunner, Task.Manageable]
  cases Task.named? interpreter url user password timeout with
  | none => exact ends_execute _
  | some r =>
    have hmild := r.mild_problems s.files
    dsimp only
    cases hproblems : r.problems s.files with
    | error x =>
      rw [hproblems] at hmild
      refine ⟨?_, iff_of_true (Mild.error_iff.2 (Mild.error_iff.1 hmild)) ?_⟩
      · rintro a ⟨⟩
      · rintro ⟨⟩
    | ok problems =>
      cases problems with
      | cons p ps =>
        refine .of_ok (Nat.le_refl 1) ?_
        rintro ⟨⟩
      | nil =>
        rw [forall_prop_of_true rfl]
        obtain ⟨hexit, hiff⟩ := ends_execute (s := { s with runner := some r }) (f := f)
          ⟨file, url, user, password, further, timeout⟩
        refine ⟨hexit, hiff.trans ⟨fun h => h.performable r rfl, fun h => ⟨?_, ?_⟩⟩⟩
        · rintro ⟨⟩
        · rintro _ ⟨⟩
          exact h

/-- **What comes of a task.** -/
theorem ends_perform [Yaml.Loader] [Yaml.LawfulLoader] (task : Task) :
    Ends ((perform f input task).run.run s).1 (task.Manageable s input) := by
  cases task with
  | validate file errorsOnly => exact ends_validate file errorsOnly
  | validateSuite directory recursive stop => exact ends_validateSuite directory recursive stop
  | checkPhases file =>
    exact ends_of_given (fun _ => Answer.exit_inFormat_le _ _ _ _) PhaseReview.textual_ofText
      fun _ => PhaseReview.answers_ofText_iff
  | checkCommands file =>
    exact ends_of_given (fun _ => Answer.exit_inFormat_le _ _ _ _) CommandReview.textual_ofText
      fun _ => CommandReview.answers_ofText_iff
  | rules => exact .of_ok (Answer.exit_inFormat_le _ _ _ _) trivial
  | run file interpreter url user password timeout further =>
    exact ends_run file interpreter url user password timeout further
  | analyze file =>
    exact ends_of_given (fun _ => Answer.exit_inFormat_le _ _ _ _) OutputReview.textual_ofText
      fun _ => OutputReview.answers_ofText_iff
  | runnerStatus =>
    rw [perform, Session.run_bind_pure, Session.run_ofSession]
    exact .of_map (fun _ => Answer.exit_inFormat_le _ _ _ _) s.mild_status_iff

end CommandLine

end ScriptAudit
