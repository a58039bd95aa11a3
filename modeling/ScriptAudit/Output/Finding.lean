import ScriptAudit.Output.Statistics
import ScriptAudit.Text.Scan
import ScriptAudit.Text.Case
import ScriptAudit.Json.Basic

/-!
# Findings

`Finding.errors` looks for signs of failure in the output of the interpreter: results of server
calls, exceptions, assertions that do not hold, a timeout and a missing report. `Finding.warnings`
looks for deprecated interfaces and slow calls.
-/

namespace ScriptAudit

/-- The kinds of errors in the output. -/
inductive ErrorKind
  | serverCallFailed
  | assertFailed
  | exception
  | timeout
  | parseError
  deriving DecidableEq

namespace ErrorKind

/-- All kinds. -/
def all : List ErrorKind := [serverCallFailed, assertFailed, exception, timeout, parseError]

/-- The name of a kind. -/
def name : ErrorKind → Text
  | serverCallFailed => "server_call_failed"
  | assertFailed => "assert_failed"
  | exception => "exception"
  | timeout => "timeout"
  | parseError => "parse_error"

/-- The kind of a name. -/
def ofName? (t : Text) : Option ErrorKind := all.find? (·.name == t)

end ErrorKind

/-- An error in the output. -/
structure Finding where
  kind : ErrorKind
  message : Text
  location : Option Text := none
  statusCode : Option Int := none
  suggestion : Option Text := none

namespace Finding

/-- An error as an object; what is not known is left out. -/
def json (f : Finding) : Json :=
  .obj ([("type".toList, .str f.kind.name), ("message".toList, .str f.message)] ++
    Json.field? "location" (f.location.map .str) ++
    Json.field? "status_code" (f.statusCode.map Json.int) ++
    Json.field? "suggestion" (f.suggestion.map .str))

/-! ## Server calls -/

/-- What to do about a status code. -/
def advice (code : Int) : Text :=
  match code with
  | 400 => "Bad request - check the request payload format and required fields."
  | 401 => "Unauthorized - verify username and password credentials."
  | 403 => "Forbidden - check user permissions for this operation."
  | 404 => "Not found - verify the endpoint URL and entity exists."
  | 409 => "Conflict - the record may already exist or have a constraint violation."
  | 422 => "Validation error - check the data values against business rules."
  | 500 => "Server error - check server logs for details."
  | 503 => "Service unavailable - server may be overloaded, try again later."
  | code => "HTTP " ++ Text.ofInt code ++ " error - check the API documentation.".toList

/-- The error of a command whose result tells of a failure. -/
def ofRun? (r : Trace.Run) : Option Finding :=
  r.outcome.bind fun o =>
    if o.code ≥ 400 then
      some
        { kind := .serverCallFailed
          message := "Server call failed: " ++ r.text
          location := some (r.timestamp ++ " - ".toList ++ r.command)
          statusCode := some o.code
          suggestion := some (advice o.code) }
    else none

/-! ## Exceptions -/

/-- The rest of a line after as many blanks as possible that does not begin with a zero, and how
much of the text it ends at; `passed` blanks have been passed over already. -/
def detailAfter? : (passed : Nat) → (blanks : Text) → Text → Option (Text × Nat)
  | _, [], _ => none
  | n, _ :: bs, rest =>
    (detailAfter? (n + 1) bs rest) <|>
      (if (bs ++ rest).head?.all fun c => c == '0' || c == '\n' then none
      else
        let line := (bs ++ rest).takeWhile (· ≠ '\n')
        some (line, n + 1 + line.length))

/-- Finds the word `Exception`, perhaps with a colon, and the rest of the line after it. -/
def exceptionDetail : Recogniser Text := fun _ t => do
  let rest ← Text.afterKeyword? "Exception" t
  let rest := (Text.after? [':'] rest).getD rest
  let blanks := rest.takeWhile isBlank
  let (detail, size) ← detailAfter? 0 blanks (rest.drop blanks.length)
  return (detail, t.length - rest.length + size)

/-- The errors of exceptions. A detail of digits only is a count and no exception. -/
def exceptions (raw : Text) : List Finding :=
  ((exceptionDetail.occurrences raw).map Text.trim).filterMap fun m =>
    if m.isEmpty || m.all isDigit then none
    else
      some
        { kind := .exception
          message := m
          suggestion := some "Check the TAR file for syntax errors or missing dependencies." }

/-! ## Assertions -/

/-- The text up to the last occurrence of `failed` or `false`. -/
def throughFailure? : Text → Option Text
  | [] => none
  | c :: cs =>
    match throughFailure? cs with
    | some t => some (c :: t)
    | none =>
      ["failed".toList, "false".toList].findSome? fun w =>
        (Text.afterKeyword? w (c :: cs)).map fun _ => (c :: cs).take w.length

/-- Finds the word `Assert` and the rest of the line up to its last sign of failure. -/
def failedAssert : Recogniser Text := fun _ t => do
  let rest ← Text.afterKeyword? "Assert" t
  let blanks := rest.takeWhile isBlank
  if blanks.isEmpty then none
  let detail ← throughFailure? ((rest.drop blanks.length).takeWhile (· ≠ '\n'))
  let size := 6 + blanks.length + detail.length
  return (t.take size, size)

/-- The errors of assertions that do not hold. -/
def asserts (raw : Text) : List Finding :=
  (failedAssert.occurrences raw).map fun t =>
    { kind := .assertFailed
      message := Text.trim t
      suggestion := some "Verify the expected values in the assert statement." }

/-! ## All errors -/

/-- The error of an output that tells of a timeout. -/
def timeouts (raw : Text) : List Finding :=
  if Text.contains "timeout" raw || Text.contains "Timeout" raw then
    [{ kind := .timeout
       message := "Test execution timed out"
       suggestion := some "Increase the timeout or check if the server is responding slowly." }]
  else []

/-- The error of an output without a report. -/
def missingReport (raw : Text) : List Finding :=
  if Text.contains "Test Report" raw then []
  else
    [{ kind := .parseError
       message := "Output does not contain a Test Report section"
       suggestion := some ("Check that ScriptARest ran to completion and that the output was not " ++
         "truncated.".toList) }]

/-- The errors of an output whose commands are known. -/
def errors (raw : Text) (runs : List Trace.Run) : List Finding :=
  runs.filterMap ofRun? ++ exceptions raw ++ asserts raw ++ timeouts raw ++ missingReport raw

/-- Errors in one line. -/
def summary : List Finding → Text
  | [] => "Unknown error"
  | [f] => f.message
  | fs => Text.ofNat fs.length ++ " errors found: ".toList ++
      Text.joinWith "; " ((fs.take 3).map Finding.message)

/-! ## Warnings -/

/-- The average, in milliseconds, above which a call is slow. -/
def slowAverage : Nat := 10000

/-- Finds an average between quotation marks. -/
def quotedAverage : Recogniser Text := fun _ t => do
  let rest ← Text.after? "\"Avg\":" t
  let rest ← Text.after? ['"'] (Text.trimLeft rest)
  let ds := rest.takeWhile isDecimal
  let rest ← Text.after? ['"'] (rest.drop ds.length)
  if ds.isEmpty then none else return (ds, t.length - rest.length)

/-- The warning of an average. -/
def averageWarning (ds : Text) : Except Fault (List Text) := do
  let n ← Trace.count ds
  if n > slowAverage then
    return ["Slow API call detected (" ++ Text.ofNat n ++ "ms average)".toList]
  else return []

/-- The warnings of an output. -/
def warnings (raw : Text) : Except Fault (List Text) := do
  let slow ← (quotedAverage.occurrences raw).mapM averageWarning
  return (if Text.contains "deprecated" raw || Text.contains "Deprecated" raw then
    ["Deprecated API usage detected".toList] else []) ++ slow.flatten

end Finding

end ScriptAudit
