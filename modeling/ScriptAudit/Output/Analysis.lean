import ScriptAudit.Output.Result
import ScriptAudit.Output.Ranking
import ScriptAudit.Check.Issue

/-!
# Analyses

An `Analysis` says what a result means: a summary, issues with suggestions, the slowest calls with
recommendations, and how much was covered.
-/

namespace ScriptAudit

/-- What an analysis finds fault with. -/
structure Diagnosis where
  severity : Severity
  description : Text
  suggestion : Option Text := none

/-- A diagnosis as an object; what is not known is left out. -/
def Diagnosis.json (d : Diagnosis) : Json :=
  .obj ([("severity".toList, .str d.severity.name), ("description".toList, .str d.description)] ++
    Json.field? "suggestion" (d.suggestion.map .str))

/-- How long the calls took. -/
structure Performance where
  totalTime : Number
  slowest : List ServerCall
  recommendations : List Text

/-- How much was covered. -/
structure Coverage where
  serverCalls : Int
  endpoints : Nat
  asserts : Int

/-- What a result means. -/
structure Analysis where
  summary : Text
  issues : List Diagnosis
  performance : Performance
  coverage : Coverage

namespace Analysis

/-! ## Summary -/

/-- A number with two places. -/
def twoPlaces (n : Number) : Except Fault Text :=
  match n.toFloat? with
  | some x => .ok (Fixed.text 2 x)
  | none => .error .integerRange

/-- A phrase with a number, where the number is positive. -/
def ifPositive (n : Int) (phrase : String) : List Text :=
  if n > 0 then [Text.ofInt n ++ phrase.toList] else []

/-- A result in one sentence. -/
def summarize (r : Result) : Except Fault Text :=
  let report := r.report
  if r.success then do
    return "Test " ++ report.testName ++ " passed successfully in ".toList ++
      (← twoPlaces report.seconds) ++ "s with ".toList ++ Text.ofInt report.serverCalls ++
      " server calls.".toList
  else
    let problems := ifPositive report.failedServerCalls " failed server calls" ++
      ifPositive report.failedAsserts " failed assertions" ++
      ifPositive report.exceptions " exceptions"
    let problems := if problems.isEmpty then ["status " ++ report.status.name] else problems
    .ok ("Test " ++ report.testName ++ " FAILED: ".toList ++ Text.joinWith ", " problems ++ ['.'])

/-! ## Issues -/

/-- Whether a test should assert something: by its type, or else by its name. -/
def expectsAsserts (r : Report) : Bool :=
  match r.testType with
  | some (c :: cs) => (["TestData".toList, "TestUtil".toList].elem (c :: cs)).not
  | _ =>
    let name := Text.lower r.testName
    Text.contains "test" name && !Text.contains "data" name && !Text.contains "util" name

/-- The issue of a test that asserts nothing. -/
def missingAsserts (r : Report) : List Diagnosis :=
  if r.asserts = 0 && expectsAsserts r then
    [{ severity := .warning
       description := "Test case has no assertions"
       suggestion := some "Add Assert or AssertJson commands to verify expected outcomes." }]
  else []

/-- The quotient of two integers. -/
def quotient (n d : Int) : Except Fault Float :=
  match Binary64.ofRatio? (decide (n < 0) != decide (d < 0)) n.natAbs d.natAbs with
  | some x => .ok x
  | none => .error .quotientRange

/-- The issue of many failed server calls. -/
def failureRate (r : Report) : Except Fault (List Diagnosis) := do
  if r.serverCalls ≤ 0 then return []
  let rate ← quotient r.failedServerCalls r.serverCalls
  if Number.less (.float 0.1) (.float rate) then
    return [{ severity := .error
              description := "High server call failure rate: " ++ Fixed.text 1 (rate * 100) ++ ['%']
              suggestion := some "Review the failed calls and check data dependencies." }]
  else return []

/-- The words that hint at a cause, and what is said about it. -/
def hints : List (List Text × Diagnosis) :=
  [(["not found".toList, "404".toList],
      { severity := .info
        description := "Some resources were not found (404 errors)"
        suggestion := some "Verify that test data dependencies are created before this test runs." }),
    (["unauthorized".toList, "401".toList],
      { severity := .error
        description := "Authentication errors detected"
        suggestion := some "Check username/password credentials and user permissions." }),
    (["validation".toList, "422".toList],
      { severity := .error
        description := "Data validation errors detected"
        suggestion := some "Review the input data against business rules." })]

/-- An error and its status code in small letters. -/
def hintText (f : Finding) : Text :=
  let code : Text :=
    match f.statusCode with
    | some c => if c = 0 then [] else Text.ofInt c
    | none => []
  Text.lower (f.message ++ [' '] ++ code)

/-- What the errors hint at. -/
def hinted (errors : List Finding) : List Diagnosis :=
  let texts := errors.map hintText
  (hints.filter fun (words, _) => texts.any fun t => words.any (Text.contains · t)).map Prod.snd

/-- The issues of a result. -/
def diagnose (r : Result) : Except Fault (List Diagnosis) := do
  let rate ← failureRate r.report
  return r.errors.map (fun e => ⟨.error, e.message, e.suggestion⟩) ++
    r.warnings.map (fun w => ⟨.warning, w, none⟩) ++
    missingAsserts r.report ++ rate ++ hinted r.errors

/-! ## Performance -/

/-- Whether something occurs in the address of a call: as a part of a text, an item of an array or
a field of an object. -/
def occursIn (t : Text) : Json → Except Fault Bool
  | .str url => .ok (Text.contains t url)
  | .arr vs => .ok (vs.any fun | .str u => u == t | _ => false)
  | .obj fs => .ok (fs.any fun f => f.1 == t)
  | .null => .error (.noContainer "NoneType")
  | .bool _ => .error (.noContainer "bool")
  | .num (.int _) => .error (.noContainer "int")
  | .num (.float _) => .error (.noContainer "float")

/-- Whether a call executes an action. -/
def isAction (c : ServerCall) : Except Fault Bool := do
  if ← occursIn "/Action" c.url then return true else occursIn "Action_" c.url

/-- The seconds above which a test is long. -/
def longTest : Number := .int 60

/-- The average above which a call is slow. -/
def slowCall : Number := .int 5000

/-- The average above which an action is slow. -/
def slowAction : Number := .int 10000

/-- The number of calls above which they should be batched. -/
def batching : Number := .int 5

/-- The number of slowest calls that are shown. -/
def slowestLimit : Nat := 5

/-- How long the calls of a result took. -/
def performanceOf (r : Result) : Except Fault Performance := do
  let calls := r.statistics
  let slow := calls.filter fun c => slowCall.less c.average
  let actions ← calls.filterM isAction
  return {
    totalTime := r.report.seconds
    slowest := (Ranking.descending ServerCall.average calls).take slowestLimit
    recommendations :=
      (if longTest.less r.report.seconds then
        ["Consider splitting this test into smaller tests for faster feedback.".toList]
      else []) ++
      (if slow.isEmpty then [] else
        [Text.ofNat slow.length ++
          " API calls take more than 5000ms. Consider optimizing or caching.".toList]) ++
      (if calls.any fun c => batching.less c.count then
        ["Some endpoints are called multiple times. Consider batching requests.".toList]
      else []) ++
      (if actions.any fun c => slowAction.less c.average then
        [("Action operations are slow. This is often expected for complex business " ++
          "operations.").toList]
      else []) }

/-- What a result means. -/
def ofResult (r : Result) : Except Fault Analysis := do
  return {
    summary := ← summarize r
    issues := ← diagnose r
    performance := ← performanceOf r
    coverage := ⟨r.report.serverCalls, r.statistics.length, r.report.asserts⟩ }

/-! ## Objects -/

/-- An analysis as an object. -/
def json (a : Analysis) : Json :=
  Json.object
    [("summary", .str a.summary),
      ("issues", .arr (a.issues.map Diagnosis.json)),
      ("performance", Json.object
        [("total_time", .num a.performance.totalTime),
          ("slowest_calls", .arr (a.performance.slowest.map ServerCall.json)),
          ("recommendations", Json.texts a.performance.recommendations)]),
      ("coverage", Json.object
        [("server_calls_made", Json.int a.coverage.serverCalls),
          ("unique_endpoints", Json.nat a.coverage.endpoints),
          ("asserts_executed", Json.int a.coverage.asserts)])]

end Analysis

end ScriptAudit
