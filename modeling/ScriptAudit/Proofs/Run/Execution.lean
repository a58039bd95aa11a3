import ScriptAudit.Proofs.Fault
import ScriptAudit.Run.Execution

/-!
# Results of executions

Whatever becomes of an execution, its result has one of two forms: that of the output of the
interpreter, or that of a test that has no output.

* `Result.IsFailure` — the result of a test without output.
* `Execution.Blocked` — nothing is started.
* `Execution.IsAsked` — the invocation of the interpreter, if it is started.
* `Execution.Tells` — what the end of the interpreter makes of the result.
* `Execution.shaped_of_perform` — the main result.
-/

namespace ScriptAudit

/-! ## Decoding -/

/-- No byte is lost when bytes are decoded: defects leave a character. -/
theorem Utf8.isEmpty_decodeLeniently (bs : Bytes) : (decodeLeniently bs).isEmpty = bs.isEmpty := by
  cases bs with
  | nil => rfl
  | cons b bs =>
    have hpieces : pieces 0 0 (b :: bs) ≠ [] := by
      rw [pieces]
      split <;> exact List.cons_ne_nil _ _
    simpa [decodeLeniently] using hpieces

/-- The result of a test of which there is no output: one error, of the given kind. -/
structure Result.IsFailure (r : Result) (file : Text) (kind : ErrorKind) : Prop where
  success : r.success = false
  status : r.report.status = .error
  exceptions : r.report.exceptions = 1
  filePath : r.report.filePath = file
  error : ∃ e, r.errors = [e] ∧ r.errorMessage = some e.message ∧ e.kind = kind
  /-- There is nothing that would come from an output. -/
  bare : r.runs = [] ∧ r.statistics = [] ∧ r.warnings = [] ∧ r.output = []

theorem Result.isFailure_failed (message file : Text) (timedOut : Bool) :
    (failed message file timedOut).IsFailure file (if timedOut then .timeout else .exception) := by
  refine ⟨rfl, rfl, rfl, rfl, ?_, rfl, rfl, rfl, rfl⟩
  cases timedOut <;> exact ⟨_, rfl, rfl, rfl⟩

namespace Execution

variable {files : Files} {launch : Invocation → Except Fault Outcome} {r : Runner} {t : TestRun}

/-! ## What is started -/

/-- The place to which the path of the test leads. -/
def place (files : Files) (t : TestRun) : List Text := (Path.ofText t.file).resolve files.current

/-- Nothing is started: no interpreter is named, the one that is named is not there, or there is
no file to be tested. -/
inductive Blocked (files : Files) (r : Runner) (t : TestRun) : Prop
  | unnamed (h : r.path = [])
  | noInterpreter (h : files.has (Path.ofText r.path) = .ok false)
  | noTestFile (h : files.hasFile (Path.ofText (Path.absolute (place files t))) = .ok false)

/-- A number is the first of some wishes that is given and not zero. -/
def IsFirstGiven (n : Number) (wishes : List (Option Number)) : Prop :=
  ∃ before after, wishes = before ++ some n :: after ∧ n.isZero = false ∧
    ∀ w ∈ before, ∀ m ∈ w, m.isZero = true

/-- The invocation that a test asks for. What the test says takes precedence over what the runner
says. -/
structure IsAsked (files : Files) (r : Runner) (t : TestRun) (i : Invocation) : Prop where
  executable : i.executable = r.path
  arguments : i.arguments =
    ["serverurl=".toList ++ t.url.getD r.url, "username=".toList ++ t.user.getD r.user,
      "password=".toList ++ t.password.getD r.password,
      "fileToRead=".toList ++ (place files t).getLast?.getD []] ++ t.further
  directory : i.directory = (place files t).dropLast
  limit : IsFirstGiven i.limit [t.timeout, some r.timeout, some (.int 600)]

theorem isFirstGiven_limit (r : Runner) (t : TestRun) :
    IsFirstGiven (r.limit t) [t.timeout, some r.timeout, some (.int 600)] := by
  have hlast : (Number.int 600).isZero = false := rfl
  -- what the runner says, or else the last wish
  have hrunner (before : List (Option Number)) (hbefore : ∀ w ∈ before, ∀ m ∈ w, m.isZero = true) :
      IsFirstGiven (([r.timeout].find? (!·.isZero)).getD (.int 600))
        (before ++ [some r.timeout, some (.int 600)]) := by
    cases hzero : r.timeout.isZero with
    | false =>
      refine ⟨before, [some (.int 600)], ?_, ?_, hbefore⟩ <;> simp [hzero]
    | true =>
      refine ⟨before ++ [some r.timeout], [], ?_, ?_, ?_⟩
      · simp [hzero]
      · simpa [hzero] using hlast
      · intro w hw
        rcases List.mem_append.1 hw with hw | hw
        · exact hbefore w hw
        · obtain rfl := List.mem_singleton.1 hw
          rintro m ⟨⟩
          exact hzero
  have hlimit : r.limit t =
      ((t.timeout.toList ++ [r.timeout]).find? (!·.isZero)).getD (.int 600) := rfl
  rw [hlimit]
  cases t.timeout with
  | none => exact hrunner [none] (by simp)
  | some n =>
    rw [Option.toList_some, List.singleton_append]
    cases hzero : n.isZero with
    | true =>
      rw [List.find?_cons_of_neg (by simp [hzero])]
      exact hrunner [some n] (by simpa using hzero)
    | false =>
      rw [List.find?_cons_of_pos (by simp [hzero])]
      exact ⟨[], [some r.timeout, some (.int 600)], rfl, hzero, nofun⟩

theorem isAsked_invocation (files : Files) (r : Runner) (t : TestRun) :
    IsAsked files r t (invocation r t (place files t)) :=
  ⟨rfl, rfl, rfl, isFirstGiven_limit r t⟩

/-- Either nothing is started, or what is asked for. -/
theorem prepare_cases {e : Except Hindrance Invocation} (h : prepare files r t = .ok e) :
    (∃ hindrance, e = .error hindrance ∧ hindrance.isTimeout = false ∧ Blocked files r t) ∨
      e = .ok (invocation r t (place files t)) ∧ ¬ Blocked files r t := by
  rw [prepare] at h
  split at h
  · next hempty =>
    obtain rfl := Except.ok.inj h
    exact Or.inl ⟨_, rfl, rfl, .unnamed (List.isEmpty_iff.1 hempty)⟩
  · next hempty =>
    obtain ⟨hasInterpreter, hinterpreter, h⟩ := bind_eq_ok_iff.1 h
    cases hasInterpreter with
    | false =>
      obtain rfl := Except.ok.inj h
      exact Or.inl ⟨_, rfl, rfl, .noInterpreter hinterpreter⟩
    | true =>
      simp only [Bool.not_true, Bool.false_eq_true, if_false] at h
      split at h
      · cases h
      · obtain ⟨hasFile, hfile, h⟩ := bind_eq_ok_iff.1 h
        cases hasFile with
        | false =>
          obtain rfl := Except.ok.inj h
          exact Or.inl ⟨_, rfl, rfl, .noTestFile hfile⟩
        | true =>
          obtain rfl := Except.ok.inj h
          refine Or.inr ⟨rfl, ?_⟩
          rintro (hunnamed | hmissing | hmissing)
          · exact hempty (List.isEmpty_iff.2 hunnamed)
          · exact absurd (hinterpreter.symm.trans hmissing) nofun
          · exact absurd (hfile.symm.trans hmissing) nofun

/-! ## What becomes of it -/

/-- What the end of the interpreter makes of the result: if it has printed something, or has ended
well, its output is taken apart, followed by the error output if there is any. -/
def Tells (file : Text) (result : Result) : Outcome → Prop
  | .refused _ => result.IsFailure file .exception
  | .timedOut => result.IsFailure file .timeout
  | .exited code output errors =>
    (code ≠ 0 ∧ output = [] → result.IsFailure file .exception) ∧
      (¬ (code ≠ 0 ∧ output = []) → errors = [] →
        Result.ofText (Utf8.decodeLeniently output) = .ok result) ∧
      (¬ (code ≠ 0 ∧ output = []) → errors ≠ [] →
        Result.ofText (Utf8.decodeLeniently output ++ "\n--- STDERR ---\n".toList ++
          Utf8.decodeLeniently errors) = .ok result)

/-- The result that output has, or a hindrance. -/
def conclude (file : Text) : Except Hindrance Text → Except Fault Result
  | .error h => .ok (.failed h.message file h.isTimeout)
  | .ok output => Result.ofText output

theorem perform_of_error {hindrance : Hindrance} (h : prepare files r t = .ok (.error hindrance)) :
    perform files launch r t = conclude t.file (.error hindrance) := by
  rw [perform, h]
  rfl

theorem perform_of_ok {i : Invocation} (h : prepare files r t = .ok (.ok i)) :
    perform files launch r t = launch i >>= fun o => conclude t.file (outputOf i o) := by
  rw [perform, h]
  refine congrArg (launch i >>= ·) (funext fun o => ?_)
  cases outputOf i o <;> rfl

theorem tells_of_conclude {file : Text} {i : Invocation} {o : Outcome} {result : Result}
    (h : conclude file (outputOf i o) = .ok result) : Tells file result o := by
  cases o with
  | refused fault =>
    obtain rfl := Except.ok.inj h
    exact Result.isFailure_failed _ file false
  | timedOut =>
    obtain rfl := Except.ok.inj h
    exact Result.isFailure_failed _ file true
  | exited code output errors =>
    have hempty : (Utf8.decodeLeniently errors).isEmpty = errors.isEmpty :=
      Utf8.isEmpty_decodeLeniently errors
    by_cases hsilent : code ≠ 0 ∧ output = []
    · have houtput : outputOf i (.exited code output errors) =
          .error (.silent code (Utf8.decodeLeniently errors)) := by
        simp [outputOf, hsilent]
      rw [houtput, conclude] at h
      obtain rfl := Except.ok.inj h
      exact ⟨fun _ => Result.isFailure_failed _ file false, fun hspeaks => absurd hsilent hspeaks,
        fun hspeaks => absurd hsilent hspeaks⟩
    · have houtput : outputOf i (.exited code output errors) =
          .ok (joined (Utf8.decodeLeniently output) (Utf8.decodeLeniently errors)) := by
        simpa [outputOf] using hsilent
      rw [houtput, conclude, joined, hempty] at h
      refine ⟨fun h' => absurd h' hsilent, fun _ hnil => ?_, fun _ hne => ?_⟩
      · rwa [if_pos (List.isEmpty_iff.2 hnil), List.append_nil] at h
      · rwa [if_neg fun hnil => hne (List.isEmpty_iff.1 hnil), ← List.append_assoc] at h

/-- The result of an execution, by what is started. -/
structure Shaped (files : Files) (launch : Invocation → Except Fault Outcome) (r : Runner)
    (t : TestRun) (result : Result) : Prop where
  /-- Nothing is started, so the result does not depend on what comes of invocations. -/
  of_blocked : Blocked files r t → result.IsFailure t.file .exception ∧
    ∀ launch', perform files launch' r t = .ok result
  /-- What is asked for is started, and nothing else is. -/
  of_not_blocked : ¬ Blocked files r t → ∃ i o, IsAsked files r t i ∧ launch i = .ok o ∧
    Tells t.file result o ∧ ∀ launch', launch' i = .ok o → perform files launch' r t = .ok result

/-- **All results have one shape.** If an execution has a result, this is that of a test without
output when nothing is started, when the interpreter cannot be started or does not end in time, or
when it fails and prints nothing; otherwise it is that of the output. -/
theorem shaped_of_perform {result : Result} (h : perform files launch r t = .ok result) :
    Shaped files launch r t result := by
  obtain ⟨e, he, -⟩ := bind_eq_ok_iff.1 h
  obtain ⟨hindrance, rfl, htimeout, hblocked⟩ | ⟨rfl, hblocked⟩ := prepare_cases he
  · rw [perform_of_error he] at h
    refine ⟨fun _ => ⟨?_, fun launch' => (perform_of_error he).trans h⟩,
      fun hnot => absurd hblocked hnot⟩
    obtain rfl := Except.ok.inj h
    rw [htimeout]
    exact Result.isFailure_failed _ t.file false
  · obtain ⟨o, ho, hconclude⟩ := bind_eq_ok_iff.1 (perform_of_ok he ▸ h)
    refine ⟨fun h' => absurd h' hblocked, fun _ => ⟨_, o, isAsked_invocation files r t, ho,
      tells_of_conclude hconclude, fun launch' ho' => ?_⟩⟩
    rw [perform_of_ok he]
    exact bind_eq_ok_iff.2 ⟨o, ho', hconclude⟩

/-- Files with an interpreter and a test. -/
def bench : Files where
  root := .directory [("sar".toList, .file {}), ("a.mkd".toList, .file {})]

/-- A runner that says nothing about the time. -/
def operator : Runner where
  path := "sar".toList
  url := "http://server".toList
  timeout := .int 0

/-- The wish to execute the test. -/
def trial : TestRun where
  file := "a.mkd".toList

/-- An execution that does not end in time fails for this reason, after ten minutes. -/
theorem shaped_of_timedOut : ∃ result,
    perform bench (fun _ => .ok .timedOut) operator trial = .ok result ∧
      result.IsFailure trial.file .timeout ∧
      ∃ i, IsAsked bench operator trial i ∧ i.limit = .int 600 := by
  have hblocked : ¬ Blocked bench operator trial := by
    rintro (h | h | h)
    · cases h
    · exact absurd ((show bench.has _ = .ok true from rfl).symm.trans h) nofun
    · exact absurd ((show bench.hasFile _ = .ok true from rfl).symm.trans h) nofun
  have hshaped : Shaped bench (fun _ => .ok .timedOut) operator trial _ := shaped_of_perform rfl
  obtain ⟨i, o, -, ho, htells, -⟩ := hshaped.of_not_blocked hblocked
  obtain rfl := Except.ok.inj ho
  exact ⟨_, rfl, htells, _, isAsked_invocation bench operator trial, rfl⟩

end Execution

end ScriptAudit
