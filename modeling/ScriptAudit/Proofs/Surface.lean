import ScriptAudit.Proofs.CommandLine.Tasks
import ScriptAudit.Proofs.Yaml.Lawful

/-!
# Faults that are seen from outside

Who uses the program sees an answer or a fault. A command line is answered unless something else
than a file is at fault, and a tool whenever it has something to say about faults.

* `CommandLine.Task.Unread` — an input cannot be read, and what is said of it.
* `CommandLine.Covered` — how a command line is answered.
* `Tool.Covered` — how a tool is answered.
* `surfaces_covered` — the main result.
-/

namespace ScriptAudit

/-! ## Command lines -/

namespace CommandLine

variable {s : Session} {program : Text} {arguments : List Text} {input : Bytes} {task : Task}
  {f : Format}

/-- The input of a task cannot be read. This is what is said of it. -/
inductive Task.Unread (s : Session) : Task → Text → Prop
  | file {file : Text} {errorsOnly : Bool} {fault : Fault}
      (h : s.files.readText (Path.ofText file) = .error fault) (hfault : fault ≠ .nullInPath) :
      Unread s (.validate file errorsOnly) (FileReview.complaint fault)
  | noDirectory {directory : Text} {recursive stop : Bool}
      (h : s.files.hasDirectory (Path.ofText directory) = .ok false) :
      Unread s (.validateSuite directory recursive stop) (SuiteReview.noDirectory directory)
  | directory {directory path : Text} {recursive stop : Bool} {fault : FileFault}
      (h : s.files.hasDirectory (Path.ofText directory) = .error (.file fault path)) :
      Unread s (.validateSuite directory recursive stop) (fault.message path)
  | text {task : Task} {file path : Text} {fault : FileFault}
      (htask : task = .checkPhases file ∨ task = .checkCommands file ∨ task = .analyze file)
      (hfile : file ≠ ['-'])
      (h : s.files.readText (Path.ofText file) = .error (.file fault path)) :
      Unread s task (fault.message path)

theorem perform_of_unread [Yaml.Loader] {message : Text} (h : task.Unread s message) :
    (told ((perform f input task).run.run s).1, ((perform f input task).run.run s).2) =
      (.ok (.failure message), s) := by
  cases h with
  | @file path errorsOnly fault h hfault =>
    have hreview : FileReview.ofFile s.files (!errorsOnly) path = .ok (.unreadable fault) := by
      rw [FileReview.ofFile, h]
      cases fault with
      | nullInPath => exact absurd rfl hfault
      | _ => rfl
    rw [perform, Session.run_ask, hreview]
    rfl
  | noDirectory h =>
    rw [perform, Session.run_ask, SuiteReview.ofDirectory, h]
    rfl
  | directory h =>
    rw [perform, Session.run_ask, SuiteReview.ofDirectory, h]
    rfl
  | @text _ path _ fault htask hfile h =>
    have htext : s.textOf input path = .error (.file fault _) := (if_neg hfile).trans h
    obtain rfl | rfl | rfl := htask <;>
      rw [perform, Session.run_bind, Session.run_inputText, htext] <;> rfl

/-- How a command line is answered. -/
structure Covered [Yaml.Loader] (s : Session) (program : Text) (arguments : List Text)
    (input : Bytes) : Prop where
  /-- A command line that is not carried out is answered with the help or with a complaint. -/
  of_stop : ∀ stop, Task.ofArguments program arguments = .error stop →
    ∃ a, (answer program arguments input).run.run s = (.ok a, s) ∧ (a.exit = 0 ∨ a.exit = 2)
  /-- A command line without a command fails. -/
  of_none : Task.ofArguments program arguments = .ok none →
    ∃ a, (answer program arguments input).run.run s = (.ok a, s) ∧ a.exit = 1
  /-- Any other answer is a success or a failure. -/
  exit_le : ∀ task f a, Task.ofArguments program arguments = .ok (some (task, f)) →
    ((answer program arguments input).run.run s).1 = .ok a → a.exit ≤ 1
  /-- What a task needs to be answered. -/
  answers_iff : ∀ task f, Task.ofArguments program arguments = .ok (some (task, f)) →
    (Answers ((answer program arguments input).run.run s).1 ↔ task.Manageable s input)
  /-- It is told of an input that cannot be read. -/
  of_unread : ∀ task f message, Task.ofArguments program arguments = .ok (some (task, f)) →
    task.Unread s message → (answer program arguments input).run.run s =
      (.ok { exit := 1, output := [], errors := "Error: ".toList ++ message ++ ['\n'] }, s)

theorem answers_told_iff {e : Except Fault Answer} : Answers (told e) ↔ Mild e := by
  cases e with
  | ok a => exact iff_of_true (answers_ok a) (.of_ok a)
  | error x =>
    cases x with
    | file fault path => exact iff_of_true (answers_ok _) (.of_file fault path)
    | _ => exact iff_of_false (not_answers_error _) (Mild.not_error rfl)

theorem exit_told_le {e : Except Fault Answer} (h : ∀ a, e = .ok a → a.exit ≤ 1) {a : Answer}
    (ha : told e = .ok a) : a.exit ≤ 1 := by
  cases e with
  | ok b =>
    obtain rfl := Except.ok.inj ha
    exact h b rfl
  | error x =>
    cases x with
    | file =>
      obtain rfl := Except.ok.inj ha
      exact Nat.le_refl 1
    | _ => cases ha

theorem covered [Yaml.Loader] [Yaml.LawfulLoader] (s : Session) (program : Text)
    (arguments : List Text) (input : Bytes) :
    Covered s program arguments input where
  of_stop stop h := by
    refine ⟨.ofStop stop, by rw [answer, h]; rfl, ?_⟩
    cases stop with
    | help => exact Or.inl rfl
    | misuse => exact Or.inr rfl
  of_none h := ⟨_, by rw [answer, h]; rfl, rfl⟩
  exit_le task f a h ha := by
    rw [run_answer h] at ha
    exact exit_told_le (ends_perform task).exit_le ha
  answers_iff task f h := by
    rw [run_answer h, answers_told_iff]
    exact (ends_perform task).mild_iff
  of_unread task f message h hunread := by
    rw [run_answer h]
    exact perform_of_unread hunread

end CommandLine

/-! ## Tools -/

namespace Tool

/-- How a tool is answered. -/
structure Covered [Yaml.Loader] (s : Session) (t : Tool) : Prop where
  /-- An answer is the text of a value. -/
  text : ∀ text, (t.answer.run.run s).1 = .ok text →
    ∃ v, text = Json.indented v ∨ text = Json.compact v
  /-- All tools but one are answered whatever comes of them. -/
  answers : t ≠ .runnerStatus → Answers (t.answer.run.run s).1
  /-- It cannot be told what is known about the runner where the system refuses to look for a file,
  and where the assignments are no text. -/
  answers_iff : t = .runnerStatus → (Answers (t.answer.run.run s).1 ↔
    (s.runner = none → Configuration.Legible s.files s.sources ∧
      ∀ p, Configuration.Reached s.files s.sources p → Answers (s.files.has p)) ∧
    ∀ r, s.current = .ok (some r) → r.path ≠ [] → Answers (s.files.has (Path.ofText r.path)))

theorem run_answer [Yaml.Loader] (t : Tool) (s : Session) : t.answer.run.run s =
    match t.perform.run.run s with
    | (.ok v, s') => (.ok (Json.indented v), s')
    | (.error f, s') =>
      match t.complaint? f with
      | some v => (.ok (Json.compact v), s')
      | none => (.error f, s') := by
  have hmap : (Json.indented <$> t.perform).run.run s =
      ((t.perform.run.run s).1.map Json.indented, (t.perform.run.run s).2) := by
    rw [← bind_pure_comp, Session.run_bind_pure]
  rw [answer, Session.run_tryCatch, hmap]
  rcases t.perform.run.run s with ⟨f | v, s'⟩
  · dsimp only [Except.map]
    cases t.complaint? f <;> rfl
  · rfl

theorem covered [Yaml.Loader] (s : Session) (t : Tool) : Covered s t where
  text text h := by
    rw [run_answer] at h
    split at h
    · obtain rfl := Except.ok.inj h
      exact ⟨_, Or.inl rfl⟩
    · split at h
      · obtain rfl := Except.ok.inj h
        exact ⟨_, Or.inr rfl⟩
      · cases h
  answers hne := by
    have hspeaks : t = .rules ∨ ∀ f, ∃ v, t.complaint? f = some v := by
      cases t with
      | rules => exact Or.inl rfl
      | runnerStatus => exact absurd rfl hne
      | _ => exact Or.inr fun f => ⟨_, rfl⟩
    obtain rfl | hspeaks := hspeaks
    · exact answers_ok _
    · rw [run_answer]
      rcases t.perform.run.run s with ⟨f | v, s'⟩
      · obtain ⟨v, hv⟩ := hspeaks f
        dsimp only
        rw [hv]
        exact answers_ok _
      · exact answers_ok _
  answers_iff := by
    rintro rfl
    have hperform : (perform .runnerStatus).run.run s =
        ((s.current >>= s.settled.status).map RunnerStatus.json, s.settled) := by
      rw [perform, ← bind_pure_comp, Session.run_bind_pure, Session.run_ofSession]
    rw [run_answer, hperform, ← s.answers_configured_iff, ← s.answers_status_iff]
    cases s.current >>= s.settled.status with
    | error f => exact iff_of_false (not_answers_error f) (not_answers_error f)
    | ok status => exact iff_of_true (answers_ok _) (answers_ok status)

end Tool

/-! ## Both together -/

/-- **What is seen from outside.** A command line is answered with a success, a failure or what is
wrong with it, and it is told of an input that cannot be read, but only where nothing else than a
file can be at fault; a tool is answered with the text of a value, and only one tool may not be
answered at all. -/
theorem surfaces_covered [Yaml.Loader] [Yaml.LawfulLoader] (s : Session) :
    (∀ program arguments input, CommandLine.Covered s program arguments input) ∧
      ∀ t, Tool.Covered s t :=
  ⟨CommandLine.covered s, Tool.covered s⟩

/-- A session with a document and assignments that are no text. -/
def garbled : Session where
  files := { root := .directory [("a.mkd".toList, .file { content := [0xff] }),
    (Configuration.fileName, .file { content := [0xff] })] }
  project := "/project".toList

/-- It is told of a document that is not there, and the rules are listed. -/
theorem failure_of_missing :
    (CommandLine.answer "cli.py".toList ["check-aaa".toList, "b.mkd".toList] []).run.run garbled =
        (.ok { exit := 1, output := [],
               errors := "Error: [Errno 2] No such file or directory: 'b.mkd'\n".toList },
          garbled) ∧
      Answers (Tool.rules.answer.run.run garbled).1 := by
  have htask : CommandLine.Task.ofArguments "cli.py".toList ["check-aaa".toList, "b.mkd".toList] =
      .ok (some (.checkPhases "b.mkd".toList, .text)) := by
    with_unfolding_all rfl
  have hunread : CommandLine.Task.Unread garbled (.checkPhases "b.mkd".toList)
      (FileFault.message .missing "b.mkd".toList) :=
    .text (Or.inl rfl) (by decide) rfl
  obtain ⟨hlines, htools⟩ := surfaces_covered garbled
  exact ⟨(hlines _ _ []).of_unread _ _ _ htask hunread, (htools .rules).answers nofun⟩

/-- Of a document that is no text nothing is told, be it in a file or on the standard input, and
neither is the status of a runner where the assignments are no text. -/
theorem not_answers_garbled :
    (CommandLine.answer "cli.py".toList ["check-aaa".toList, "a.mkd".toList] []).run.run garbled =
        (.error (.malformedText ⟨0, 1, 0xff, .start⟩), garbled) ∧
      (CommandLine.answer "cli.py".toList ["check-aaa".toList, "-".toList] [0xff]).run.run garbled =
        (.error (.malformedText ⟨0, 1, 0xff, .start⟩), garbled) ∧
      (Tool.runnerStatus.answer.run.run garbled).1 =
        .error (.malformedText ⟨0, 1, 0xff, .start⟩) := by
  have htask : CommandLine.Task.ofArguments "cli.py".toList ["check-aaa".toList, "a.mkd".toList] =
      .ok (some (.checkPhases "a.mkd".toList, .text)) := by
    with_unfolding_all rfl
  have htask' : CommandLine.Task.ofArguments "cli.py".toList ["check-aaa".toList, "-".toList] =
      .ok (some (.checkPhases "-".toList, .text)) := by
    with_unfolding_all rfl
  refine ⟨?_, ?_, rfl⟩
  · rw [CommandLine.run_answer htask]
    rfl
  · rw [CommandLine.run_answer htask']
    rfl

end ScriptAudit
