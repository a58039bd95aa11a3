import ScriptAudit.Suite
import ScriptAudit.Check.Rules
import ScriptAudit.Output.Remedy
import ScriptAudit.Run.Session
import ScriptAudit.Json.Printer

/-!
# Tools

A `Tool` is a request that an assistant can make, with its arguments. `Tool.perform` answers it with
a value and `Tool.answer` with the text of one; a fault is part of the answer of most tools.
`Tool.ofCall?` reads a tool from its name and named arguments.
-/

namespace ScriptAudit

/-- A request of an assistant. -/
inductive Tool
  /-- Review a file. -/
  | validateFile (path : Text) (strict : Bool)
  /-- Review a text. -/
  | validateContent (content : Text) (name : Option Text) (strict : Bool)
  /-- Review the documents of a directory. -/
  | validateSuite (directory : Text) (recursive stop : Bool)
  /-- Review the phases of a text. -/
  | checkPhases (content : Text)
  /-- Review the commands of a text. -/
  | checkCommands (content : Text)
  /-- List the rules of all checks. -/
  | rules
  /-- Replace the runner. -/
  | configureRunner (runner : Runner)
  /-- Execute a test. -/
  | runTest (test : TestRun)
  /-- Review the output of the interpreter. -/
  | analyzeResults (output : Text)
  /-- Tell what is known about the runner. -/
  | runnerStatus

namespace Tool

/-- What a tool answers. -/
def perform [Yaml.Loader] : Tool → Request Json
  | validateFile path strict => Session.ask fun s =>
    (FileReview.ofFile s.files strict path).map (FileReview.json path)
  | validateContent content name strict => Session.ask fun _ =>
    (Review.ofText strict content).map (Review.json name)
  | validateSuite directory recursive stop => Session.ask fun s =>
    (SuiteReview.ofDirectory s.files recursive stop directory).map
      (SuiteReview.outcomeJson directory)
  | checkPhases content => Session.ask fun _ => (PhaseReview.ofText content).map PhaseReview.json
  | checkCommands content => Session.ask fun _ =>
    (CommandReview.ofText content).map CommandReview.json
  | rules => pure RuleSet.allJson
  | configureRunner r => Runner.configuredJson <$> Session.configure r
  | runTest t => TestReview.outcomeJson <$> Session.execute t
  | analyzeResults output => Session.ask fun _ =>
    (OutputReview.ofText output).map OutputReview.json
  | runnerStatus => RunnerStatus.json <$> RunnerStatus.ofSession

/-- What a tool says in place of an answer when there is a fault; two tools say nothing. -/
def complaint? (f : Fault) : Tool → Option Json
  | rules | runnerStatus => none
  | configureRunner _ =>
    some (Json.object [("success", .bool false), ("error", .str f.message)])
  | _ => some (Json.object [("error", .str f.message)])

/-- The text that a tool answers. -/
def answer [Yaml.Loader] (t : Tool) : Request Text :=
  tryCatch (Json.indented <$> t.perform) fun f =>
    match t.complaint? f with
    | some v => pure (Json.compact v)
    | none => throw f

/-! ## Calls -/

/-- The text of an argument. -/
def text? (name : String) (arguments : List (Text × Json)) : Option Text :=
  match Json.get? name arguments with
  | some (.str t) => some t
  | _ => none

/-- The truth value of an argument. -/
def flag (name : String) (default : Bool) (arguments : List (Text × Json)) : Bool :=
  match Json.get? name arguments with
  | some (.bool b) => b
  | _ => default

/-- The number of an argument. -/
def number? (name : String) (arguments : List (Text × Json)) : Option Number :=
  match Json.get? name arguments with
  | some (.num n) => some n
  | _ => none

/-- Reads a tool from its name and its arguments. -/
def ofCall? (name : String) (arguments : List (Text × Json)) : Option Tool := do
  let text (k : String) := text? k arguments
  let strict := flag "strict_mode" true arguments
  match name with
  | "validate_file" => return validateFile (← text "file_path") strict
  | "validate_content" => return validateContent (← text "content") (text "filename") strict
  | "validate_suite" =>
    return validateSuite (← text "directory_path") (flag "recursive" true arguments)
      (flag "stop_on_error" false arguments)
  | "check_aaa_structure" => return checkPhases (← text "content")
  | "check_commands" => return checkCommands (← text "content")
  | "get_validation_rules" => return rules
  | "configure_runner" =>
    return configureRunner (Runner.ofParts (← text "script_a_rest_path") (← text "server_url")
      (← text "username") (← text "password") (number? "timeout_seconds" arguments))
  | "run_test" =>
    return runTest
      { file := ← text "file_path"
        url := text "server_url"
        user := text "username"
        password := text "password"
        timeout := number? "timeout_seconds" arguments }
  | "analyze_results" => return analyzeResults (← text "raw_output")
  | "get_runner_status" => return runnerStatus
  | _ => none

end Tool

end ScriptAudit
