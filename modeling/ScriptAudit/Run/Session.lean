import ScriptAudit.Run.Execution

/-!
# Sessions

A `Session` is what lasts from one request to the next: the files, the environment and the current
runner. The runner is made from what is configured as soon as that is enough to name an interpreter
and a server, and stays the same until it is replaced. A request that fails keeps what it has
changed before it failed.
-/

namespace ScriptAudit

/-- What lasts from one request to the next. -/
structure Session where
  files : Files
  environment : Bindings := []
  /-- The directory with the last candidate for the file of assignments. -/
  project : Text
  runner : Option Runner := none

/-- A request: it may fail, and it may change the session in any case. -/
abbrev Request (α : Type) := ExceptT Fault (StateM Session) α

namespace Session

/-- A request that looks at the session only. -/
def ask {α : Type} (f : Session → Except Fault α) : Request α := ExceptT.mk do return f (← get)

/-- The runner that is configured at present. -/
def configured (s : Session) : Except Fault Runner :=
  Runner.configured s.files s.environment s.project

/-- The current runner, which is made now if there is none and enough is configured. -/
def runner? : Request (Option Runner) := do
  match (← get).runner with
  | some r => return some r
  | none =>
    let r ← ask configured
    if r.isComplete then
      modify fun s => { s with runner := some r }
      return some r
    else return none

/-- Replaces the runner, also by one that cannot execute tests, and says what has to be mended. -/
def configure (r : Runner) : Request (List Text) := do
  modify fun s => { s with runner := some r }
  ask fun s => r.problems s.files

/-- Executes a test with the current runner, if there is one. -/
def execute (t : TestRun) : Request (Option TestReview) := do
  match ← runner? with
  | none => return none
  | some r => return some (← ask fun s => TestReview.ofRun s.files r t)

end Session

namespace Runner

/-- The runner with the given parts; no limit, or one of zero seconds, stands for the usual one. -/
def ofParts (path url user password : Text) (timeout : Option Number) : Runner :=
  let given := timeout.filter (!·.isZero)
  { path, url, user, password, timeout := given.getD ({} : Runner).timeout }

/-- The answer to the replacement of the runner, given what has to be mended. -/
def configuredJson (problems : List Text) : Json :=
  if problems.isEmpty then
    Json.object [("success", .bool true), ("message", .str "Test runner configured successfully")]
  else
    Json.object [("success", .bool false), ("message", .str (invalid problems))]
where
  /-- What is said about a runner that cannot execute tests. -/
  invalid (problems : List Text) : Text :=
    "Configuration invalid: " ++ Text.joinWith ", " problems

end Runner

namespace TestReview

/-- What is said when there is no runner. -/
def noRunner : Text :=
  ("Test runner not configured. Call configure_runner first or set " ++
    "SAR_SCRIPT_A_REST_PATH and SAR_SERVER_URL.").toList

/-- The outcome of a request for an execution as an object. -/
def outcomeJson : Option TestReview → Json
  | some r => r.json
  | none => Json.object [("error", .str noRunner)]

end TestReview

/-- What is known about the runner of a session. -/
structure RunnerStatus where
  /-- The current runner, or the one that is configured at present. -/
  runner : Runner
  problems : List Text

namespace RunnerStatus

/-- What is said about a session without a runner. -/
def noRunner : List Text := ["Runner not configured".toList]

/-- Looks at the runner of the session. -/
def ofSession : Request RunnerStatus := do
  match ← Session.runner? with
  | some r => return ⟨r, ← Session.ask fun s => r.problems s.files⟩
  | none => return ⟨← Session.ask Session.configured, noRunner⟩

/-- Whether tests can be executed. -/
def isValid (s : RunnerStatus) : Bool := s.problems.isEmpty

/-- A status as an object. -/
def json (s : RunnerStatus) : Json :=
  Json.object
    [("configured", .bool s.runner.isComplete), ("config", s.runner.json),
      ("validation", Json.object
        [("valid", .bool s.isValid), ("errors", Json.texts s.problems)])]

end RunnerStatus

end ScriptAudit
