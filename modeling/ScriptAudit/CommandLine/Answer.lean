import ScriptAudit.CommandLine.Task
import ScriptAudit.Tool.Basic

/-!
# Answers to the command line

`CommandLine.answer` carries out what a command line asks for and gives what is printed together
with the code with which the program ends: 0 for success, 1 for a failure and 2 for a command line
that is not well formed.
-/

namespace ScriptAudit

/-- An issue with its secrets masked. -/
def Issue.masked (i : Issue) : Issue :=
  { i with
    message := Redaction.mask i.message
    suggestion := i.suggestion.map Redaction.mask
    context := i.context.map Redaction.mask }

namespace CommandLine

/-- What the program prints and how it ends. -/
structure Answer where
  exit : Nat
  output : Text := []
  errors : Text := []

namespace Answer

/-- The answer with some lines of output. -/
def lines (success : Bool) (ls : List Text) : Answer where
  exit := if success then 0 else 1
  output := ls.flatMap (· ++ ['\n'])

/-- The answer with a value. -/
def json (success : Bool) (v : Json) : Answer := lines success [Json.indented v]

/-- The answer in the form that is asked for. -/
def inFormat (f : Format) (success : Bool) (v : Json) (ls : List Text) : Answer :=
  match f with
  | .json => json success v
  | .text => lines success ls

/-- The answer to a request that cannot be carried out. -/
def failure (message : Text) : Answer where
  exit := 1
  errors := "Error: ".toList ++ message ++ ['\n']

/-- The answer to a command line that is not carried out. -/
def ofStop : Stop → Answer
  | .help l => { exit := 0, output := l.help }
  | .misuse l message =>
    { exit := 2
      errors := l.usage ++ ['\n'] ++ l.title ++ ": error: ".toList ++ message ++ ['\n'] }

end Answer

/-! ## Lines -/

/-- A line of equals signs. -/
def rule : Text := Text.copies 60 '='

/-- The mark of a severity. -/
def severityMark (s : Severity) : Text :=
  "  [".toList ++ Text.padRight 7 (Text.upper s.name) ++ "] ".toList

/-- A hint, if there is one; `shown` is what is shown of it. -/
def hint (t : Option Text) (shown : Text → Text) : List Text :=
  match t.filter (!·.isEmpty) with
  | some t => ["            -> ".toList ++ shown t]
  | none => []

/-- The lines about an issue; of a suggestion only the first line is shown. -/
def issueLines (i : Issue) : List Text :=
  let place := match i.line.filter (· ≠ 0) with
    | some n => "line ".toList ++ Text.ofNat n
    | none => "file"
  (severityMark i.severity ++ i.code ++ " (".toList ++ place ++ "): ".toList ++ i.message) ::
    hint i.suggestion fun t => (Text.lines t).headD []

/-- The lines about some issues below a heading; none where there are no issues. -/
def issuesBelow (heading : String) (is : List Issue) : List Text :=
  if is.isEmpty then [] else [[], heading.toList] ++ is.flatMap fun i => issueLines i.masked

/-- The number of things of a kind. -/
def counted (n : Nat) (kind : String) : Text := Text.ofNat n ++ ' ' :: kind.toList

/-- The lines about a review. -/
def reviewLines (file : Text) (r : Review) : List Text :=
  let d := r.document
  let number (s : Severity) := Text.ofNat (Review.count s r.issues)
  [[], rule, "File: ".toList ++ file, "Type: ".toList ++ r.typeName,
    if r.isValid then "Status: VALID".toList else "Status: INVALID".toList,
    "Errors: ".toList ++ number .error ++ "  Warnings: ".toList ++ number .warning ++
      "  Info: ".toList ++ number .info,
    "Found: ".toList ++ Text.joinWith ", "
      [counted d.sections.length "sections", counted d.commands.length "commands",
        counted d.usages.length "variable refs", counted d.patterns.length "patterns"]] ++
    issuesBelow ("Issues (" ++ toString r.issues.length ++ "):") r.issues ++ [rule, []]

/-- The lines about the review of a suite. -/
def suiteLines (r : SuiteReview) : List Text :=
  let entry (e : Suite.Entry) : Text :=
    (if e.valid then "  OK   ".toList else "  FAIL ".toList) ++ e.file ++ " (".toList ++
      counted e.errors "errors" ++ ", ".toList ++ counted e.warnings "warnings" ++ [')']
  let stopped : List Text :=
    if r.entries.length < r.total then
      ["  ... stopped after ".toList ++ counted r.entries.length "files"]
    else []
  [[], "Suite: ".toList ++ r.directory,
    "Files: ".toList ++ Text.ofNat r.total ++ "  Valid: ".toList ++ Text.ofNat r.valid ++
      "  Invalid: ".toList ++ Text.ofNat r.invalid] ++ r.entries.map entry ++ stopped ++ [[]]

/-- The lines about the review of the phases. -/
def phaseLines (r : PhaseReview) : List Text :=
  let line (label : String) (p : Phase) : Text :=
    "  ".toList ++ Text.padRight 8 label ++ (if r.has p then " yes".toList else " no".toList)
  (if r.applies then []
    else ["AAA structure only applies to Test Case files; nothing to check.".toList]) ++
    [line "Arrange" .arrange, line "Act" .act, line "Assert" .assert] ++
    issuesBelow "Issues:" r.issues

/-- The lines about the review of the commands. -/
def commandLines (r : CommandReview) : List Text :=
  let line (c : Command) : Text :=
    "  ".toList ++ Text.padLeft 5 (Text.ofNat c.line) ++ "  ".toList ++
      Text.padRight 18 c.keyword.name ++ Redaction.mask (c.target.getD []) ++
      (if r.hasIssue c then " !".toList else [])
  ("Commands (".toList ++ Text.ofNat r.commands.length ++ "):".toList) :: r.commands.map line ++
    issuesBelow "Issues:" r.issues

/-- The lines about the rules of a check. -/
def ruleLines (r : RuleSet) : List Text :=
  (r.name ++ (if r.enabled then " (enabled".toList else " (disabled".toList) ++
      ", default severity: ".toList ++ r.severity.name ++ [')']) ::
    r.options.map fun (k, s) => "    ".toList ++ k ++ ": ".toList ++ s.text

/-- The lines about what is found out about a result. -/
def diagnosisLines (summary : Text) (ds : List Diagnosis) : List Text :=
  let issue (d : Diagnosis) : List Text :=
    (severityMark d.severity ++ Redaction.mask d.description) ::
      hint d.suggestion Redaction.mask
  [[], Redaction.mask summary] ++
    if ds.isEmpty then [] else [[], "Issues:".toList] ++ ds.flatMap issue

/-- The lines about the time that was taken. -/
def performanceLines (p : Performance) : List Text :=
  if p.recommendations.isEmpty then []
  else
    [[], "Performance:".toList] ++
      p.recommendations.map fun t => "  - ".toList ++ Redaction.mask t

/-- The lines about an output of the interpreter. -/
def outputLines (o : OutputReview) : List Text :=
  diagnosisLines o.analysis.summary o.analysis.issues ++ performanceLines o.analysis.performance ++
    if o.result.success then [] else [[], Redaction.mask (Remedy.report o.result)]

/-- The lines about the execution of a test. -/
def testLines (t : TestReview) : Except Fault (List Text) := do
  let r := t.result.report
  let failed (n : Int) : Text := " (".toList ++ Text.ofInt n ++ " failed)".toList
  return [[], rule, "Test: ".toList ++ Redaction.mask r.testName,
      "Status: ".toList ++ r.status.name,
      "Time: ".toList ++ (← Analysis.twoPlaces r.seconds) ++ ['s'],
      "Server calls: ".toList ++ Text.ofInt r.serverCalls ++ failed r.failedServerCalls,
      "Asserts: ".toList ++ Text.ofInt r.asserts ++ failed r.failedAsserts] ++
    diagnosisLines t.analysis.summary t.analysis.issues ++ [rule, []]

/-- The lines about the runner. -/
def statusLines (s : RunnerStatus) : List Text :=
  let shown (t : Text) : Text := if t.isEmpty then ['-'] else t
  [(if s.runner.isComplete then "Configured: True".toList else "Configured: False".toList),
    "  ScriptARest: ".toList ++ shown s.runner.path, "  Server URL:  ".toList ++ shown s.runner.url,
    "  Username:    ".toList ++ shown s.runner.user,
    if s.runner.password.isEmpty then "  Password:    not set".toList
    else "  Password:    set".toList,
    "  Timeout:     ".toList ++ s.runner.timeout.text ++ ['s']] ++
    s.problems.map fun p => "  ! ".toList ++ p

/-! ## Tasks -/

/-- The text of a file, or of the standard input, which a dash stands for; bytes that are not UTF-8
are no text. The line ends of the standard input stay as they are. -/
def inputText (input : Bytes) (file : Text) : Request Text :=
  Session.ask fun s =>
    if file = ['-'] then (Utf8.decode input).mapError .malformedText
    else s.files.readText (Path.ofText file)

/-- Replaces the runner if an interpreter is named, and says what has to be mended. -/
def replaceRunner (interpreter url user password : Option Text) (timeout : Option Number) :
    Request (List Text) :=
  match interpreter.filter (!·.isEmpty) with
  | none => pure []
  | some path =>
    Session.configure
      (Runner.ofParts path (url.getD []) (user.getD []) (password.getD []) timeout)

/-- Carries out a task. -/
def perform [Yaml.Loader] (f : Format) (input : Bytes) : Task → Request Answer
  | .validate file errorsOnly => Session.ask fun s => do
    match ← FileReview.ofFile s.files (!errorsOnly) file with
    | .unreadable fault => return .failure (FileReview.complaint fault)
    | .reviewed r =>
      return .inFormat f r.isValid (FileReview.json file (.reviewed r)) (reviewLines file r)
  | .validateSuite directory recursive stop => Session.ask fun s => do
    match ← SuiteReview.ofDirectory s.files recursive stop directory with
    | none => return .failure (SuiteReview.noDirectory directory)
    | some r => return .inFormat f (r.invalid = 0) r.json (suiteLines r)
  | .checkPhases file => do
    let t ← inputText input file
    let r ← Session.ask fun _ => PhaseReview.ofText t
    return .inFormat f r.isValid r.json (phaseLines r)
  | .checkCommands file => do
    let t ← inputText input file
    let r ← Session.ask fun _ => CommandReview.ofText t
    return .inFormat f r.isValid r.json (commandLines r)
  | .rules => pure (.inFormat f true RuleSet.allJson (RuleSet.all.flatMap ruleLines))
  | .run file interpreter url user password timeout further => do
    let problems ← replaceRunner interpreter url user password timeout
    if !problems.isEmpty then return .failure (Runner.configuredJson.invalid problems)
    match ← Session.execute ⟨file, url, user, password, further, timeout⟩ with
    | none => return .failure TestReview.noRunner
    | some t =>
      let ls ← Session.ask fun _ => if f = .text then testLines t else return []
      return .inFormat f t.result.success t.json ls
  | .analyze file => do
    let t ← inputText input file
    let o ← Session.ask fun _ => OutputReview.ofText t
    return .inFormat f o.result.success o.json (outputLines o)
  | .runnerStatus => do
    let s ← RunnerStatus.ofSession
    return .inFormat f s.isValid s.json (statusLines s)

/-- The answer to the arguments of a program of this name, with some bytes as standard input. -/
def answer [Yaml.Loader] (program : Text) (arguments : List Text) (input : Bytes) :
    Request Answer :=
  match Task.ofArguments program arguments with
  | .error stop => pure (.ofStop stop)
  | .ok none => pure { exit := 1, output := (upperLevel program).help }
  | .ok (some (task, f)) =>
    tryCatch (perform f input task) fun
      | .file fault path => pure (.failure (fault.message path))
      | fault => throw fault

end CommandLine

end ScriptAudit
