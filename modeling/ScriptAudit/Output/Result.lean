import ScriptAudit.Output.Report
import ScriptAudit.Output.Finding

/-!
# Results

A `Result` is what is known of a test after its execution. `Result.ofText` takes the output of the
interpreter apart; a test is successful when its report says so and counts no failure.
-/

namespace ScriptAudit

/-- A command as an object. -/
def Trace.Run.json (r : Trace.Run) : Json :=
  .obj ([("timestamp".toList, .str r.timestamp), ("command".toList, .str r.command),
      ("full_command".toList, .str r.text), ("level".toList, Json.nat r.level)] ++
    Json.field? "result" (r.outcome.map fun o =>
      Json.object [("status_code", Json.nat o.code), ("status_text", .str o.text)]))

/-- The statistics of an address as an object. -/
def ServerCall.json (c : ServerCall) : Json :=
  Json.object [("url", c.url), ("count", .num c.count), ("avg_ms", .num c.average),
    ("max_ms", .num c.longest), ("min_ms", .num c.shortest)]

/-- A report as an object. -/
def Report.json (r : Report) : Json :=
  Json.object
    [("test_name", .str r.testName), ("status", .str r.status.name),
      ("time_seconds", .num r.seconds), ("file_path", .str r.filePath),
      ("test_type", Json.textOrNull r.testType), ("server_calls", Json.int r.serverCalls),
      ("failed_server_calls", Json.int r.failedServerCalls), ("asserts", Json.int r.asserts),
      ("failed_asserts", Json.int r.failedAsserts), ("exceptions", Json.int r.exceptions)]

/-- What is known of a test after its execution. -/
structure Result where
  success : Bool
  report : Report
  runs : List Trace.Run := []
  statistics : List ServerCall := []
  output : Text := []
  errors : List Finding := []
  warnings : List Text := []
  errorMessage : Option Text := none

namespace Result

/-- Whether a report tells of success. -/
def succeeds (r : Report) : Bool :=
  r.status = .passed && r.failedServerCalls = 0 && r.failedAsserts = 0 && r.exceptions = 0

/-- Takes the output of the interpreter apart. -/
def ofText (raw : Text) : Except Fault Result := do
  let runs ← Trace.ofText raw
  let report ← Report.read raw
  let statistics ← Statistics.read raw
  let errors := Finding.errors raw runs
  let warnings ← Finding.warnings raw
  let success := succeeds report
  return {
    success, report, runs, statistics, errors, warnings
    output := raw
    errorMessage := if success then none else some (Finding.summary errors) }

/-- The fields of a result; the output itself only when `withOutput` asks for it. -/
def fields (withOutput : Bool) (r : Result) : List (Text × Json) :=
  [("success".toList, .bool r.success),
    ("report".toList, r.report.json),
    ("commands".toList, .arr (r.runs.map Trace.Run.json)),
    ("server_call_stats".toList, .arr (r.statistics.map ServerCall.json)),
    ("errors".toList, .arr (r.errors.map Finding.json)),
    ("warnings".toList, Json.texts r.warnings)] ++
    Json.field? "error_message" ((r.errorMessage.filter (!·.isEmpty)).map .str) ++
    (if withOutput then [("raw_output".toList, .str r.output)] else [])

/-- A result as an object. -/
def json (withOutput : Bool) (r : Result) : Json := .obj (r.fields withOutput)

end Result

end ScriptAudit
