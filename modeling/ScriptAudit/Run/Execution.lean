import ScriptAudit.Run.Runner
import ScriptAudit.Output.Analysis
import ScriptAudit.Check.Redaction

/-!
# Executions

`Execution.perform` executes a test. Whatever keeps it from being executed is turned into a result
of the same form as that of a test that failed: `Result.failed`.
-/

namespace ScriptAudit

/-- Why a test has no output to be read. -/
inductive Hindrance
  /-- There is no interpreter at the given path. -/
  | noInterpreter (path : Text)
  /-- There is no file at the place that the given path leads to. -/
  | noTestFile (place : List Text)
  /-- The interpreter could not be started. -/
  | notStarted (fault : FileFault) (path : Text)
  /-- The interpreter did not end within a number of seconds. -/
  | timedOut (limit : Number)
  /-- The interpreter ended with a code that tells of a failure, and printed nothing. -/
  | silent (code : Int) (errors : Text)

namespace Hindrance

/-- What is said about a hindrance. -/
def message : Hindrance → Text
  | noInterpreter path => Runner.noInterpreter path
  | noTestFile place => "Test file not found: " ++ Path.absolute place
  | notStarted fault path => "Failed to start ScriptARest: " ++ fault.message path
  | timedOut limit => "Test execution timed out after " ++ limit.text ++ ['s']
  | silent code errors =>
    "ScriptARest exited with code " ++ Text.ofInt code ++ ": ".toList ++
      (if errors.isEmpty then "No output".toList else errors)

/-- Whether time ran out. -/
def isTimeout : Hindrance → Bool
  | timedOut _ => true
  | _ => false

end Hindrance

/-- The result of a test that has no output to be read. -/
def Result.failed (message file : Text) (timedOut : Bool) : Result where
  success := false
  report :=
    { testName := (Path.ofText file).name, status := .error, filePath := file, exceptions := 1 }
  errors :=
    [if timedOut then
        { kind := .timeout, message
          suggestion := some "Increase the timeout or check if the server is responding slowly." }
      else { kind := .exception, message }]
  errorMessage := some message

namespace Execution

/-- The output of the interpreter, the error output after a line that tells where it starts. -/
def joined (output errors : Text) : Text :=
  output ++ if errors.isEmpty then [] else Statistics.separator ++ errors

/-- What comes of the end of a program: its output, or why there is none. -/
def outputOf (i : Invocation) : Outcome → Except Hindrance Text
  | .refused fault => .error (.notStarted fault i.executable)
  | .timedOut => .error (.timedOut i.limit)
  | .exited code output errors =>
    let errors := Utf8.decodeLeniently errors
    if code ≠ 0 && output.isEmpty then .error (.silent code errors)
    else .ok (joined (Utf8.decodeLeniently output) errors)

/-- The invocation of the interpreter for a test file at a place. -/
def invocation (r : Runner) (t : TestRun) (place : List Text) : Invocation where
  executable := r.path
  arguments := r.arguments t (place.getLast?.getD [])
  directory := place.dropLast
  limit := r.limit t

/-- The invocation that executes a test, or what stands in its way. -/
def prepare (files : Files) (r : Runner) (t : TestRun) :
    Except Fault (Except Hindrance Invocation) := do
  let hasInterpreter ← if r.path.isEmpty then pure false else files.has (Path.ofText r.path)
  if !hasInterpreter then return .error (.noInterpreter r.path)
  if Path.hasNull t.file then throw .nullInPath
  let place := (Path.ofText t.file).resolve files.current
  if ← files.hasFile (Path.ofText (Path.absolute place)) then return .ok (invocation r t place)
  else return .error (.noTestFile place)

/-- Executes a test; `launch` tells what comes of an invocation. -/
def perform (files : Files) (launch : Invocation → Except Fault Outcome) (r : Runner)
    (t : TestRun) : Except Fault Result := do
  match ← prepare files r t with
  | .error h => return .failed h.message t.file h.isTimeout
  | .ok i =>
    match outputOf i (← launch i) with
    | .error h => return .failed h.message t.file h.isTimeout
    | .ok output => Result.ofText output

end Execution

/-- A result with what can be said about it. -/
structure TestReview where
  result : Result
  analysis : Analysis

namespace TestReview

/-- Executes a test and says what can be said about the result. -/
def ofRun (files : Files) (r : Runner) (t : TestRun) : Except Fault TestReview := do
  let result ← Execution.perform files files.launch r t
  return ⟨result, ← Analysis.ofResult result⟩

/-- A review as an object with all secrets masked. -/
def json (r : TestReview) : Json :=
  Redaction.maskAll (.obj (r.result.fields false ++
    [("analysis".toList, Json.object
      [("summary", .str r.analysis.summary),
        ("issues", .arr (r.analysis.issues.map Diagnosis.json))])]))

end TestReview

end ScriptAudit
