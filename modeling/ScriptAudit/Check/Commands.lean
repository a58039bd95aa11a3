import ScriptAudit.Check.Issue
import ScriptAudit.Document.Basic

/-!
# Checking commands

`Check.command` looks at a single command: whether it has the clauses that it needs, suits the
type of the document and gives away no credentials. `Check.fileTypeRules` looks at all commands of
a document together.
-/

namespace ScriptAudit

namespace Check

/-! ## Credentials -/

/-- A colon, some text and an at sign, with no slash between them. -/
def passwordInUrl : Recogniser Unit := fun _ t =>
  match t with
  | ':' :: t =>
    let run := t.takeWhile fun c => c ≠ '@' && c ≠ '/'
    if !run.isEmpty && (t.drop run.length).head? = some '@' then some ((), run.length + 2) else none
  | _ => none

/-- The names of parameters that hold secrets. -/
def secretNames : List Text :=
  ["password".toList, "secret".toList, "token".toList, "key".toList, "apikey".toList]

/-- The length of the name of a secret with the equals sign after it. -/
def secretName? (t : Text) : Option Nat :=
  secretNames.findSome? fun n =>
    match Text.afterKeyword? n t with
    | some ('=' :: _) => some (n.length + 1)
    | _ => none

/-- A parameter of a URL that holds a secret. -/
def secretParameter : Recogniser Unit := fun _ t =>
  match t with
  | c :: t => if c = '?' || c = '&' then (secretName? t).map fun n => ((), n + 1) else none
  | [] => none

/-- Whether a URL shows a password or another secret. -/
def hasCredentials (url : Text) : Bool := passwordInUrl.found url || secretParameter.found url

/-! ## Connect -/

/-- The rest after a user, and after a password where there is one. -/
def afterUser? (t : Text) : Option Text :=
  let user := t.takeWhile isWord
  if user.isEmpty then none
  else
    match t.drop user.length with
    | ':' :: t =>
      let t := (Text.after? ['{'] t).getD t
      let t := (Text.after? ['$'] t).getD t
      let word := t.takeWhile fun c => isWord c || c == '.'
      let t := t.drop word.length
      if word.isEmpty then none else some ((Text.after? ['}'] t).getD t)
    | t => some t

/-- Whether a condition makes up the whole text. -/
def isCondition (t : Text) : Bool :=
  t.head?.any isBlank &&
    match Text.afterKeyword? "When" (Text.trimLeft t) with
    | some rest => rest.head?.any isBlank && !(Text.trimLeft rest).isEmpty &&
        !(Text.trimLeft rest).elem '\n'
    | none => false

/-- Whether a text without margins connects as it should: as a user, perhaps with a password and
under a condition. -/
def isConnect (t : Text) : Bool :=
  match Text.afterKeyword? "Connect" t with
  | some rest =>
    rest.head?.any isBlank &&
      (afterUser? (Text.trimLeft rest)).any fun rest => rest.isEmpty || isCondition rest
  | none => false

/-! ## Single commands -/

/-- Keywords that need a variable for their result, in alphabetical order. -/
def needInto : List Keyword := [.get, .query]

/-- The endings of files that can be called. -/
def callExtensions : List Text := [".mkd".toList, ".md".toList]

/-- An issue of a command. -/
def commandIssue (c : Command) (code : String) (severity : Severity) (message : Text)
    (suggestion : Option Text) : List Issue :=
  [{ code, message, severity, line := some c.line, suggestion }]

/-- The issues of a command in a document of the given type. -/
def command (fileType : Option FileType) (c : Command) : List Issue :=
  let name := c.keyword.name
  (if needInto.elem c.keyword && c.into.isNone then
    commandIssue c "CMD001" .warning
      (name ++ " command should have an 'Into' clause to store the result.".toList)
      (some "Add 'Into variableName' at the end of the command.")
  else []) ++
  (if c.keyword.isServerCall && c.target.isNone then
    commandIssue c "CMD002" .error (name ++ " command is missing a target URL/path.".toList)
      (some ("Add the service URL after " ++ name ++ ". Example: ".toList ++ name ++
        " ServiceName.svc/EntitySet".toList))
  else []) ++
  (if c.keyword.isAssert && fileType == some .testUtil then
    commandIssue c "CMD003" .error
      (name ++ " commands should not be used in Test Util files.".toList)
      (some ("Move Assert commands to Test Case files. Test Utils should only prepare data " ++
        "and return results via Output.".toList))
  else []) ++
  (match fileType with
    | some t =>
      if c.keyword == .output && t != .testUtil then
        commandIssue c "CMD004" .info
          ("Output command is typically used in Test Util files, not in " ++ t.name ++ ['.']) none
      else []
    | none => []) ++
  (if c.keyword == .call && c.target.any fun t => !callExtensions.any (Text.endsWith · t) then
    commandIssue c "CMD005" .warning "Call command target should be a .mkd or .md file."
      (some "Ensure the called file has .mkd or .md extension.")
  else []) ++
  (if c.keyword == .eval && c.into.isNone then
    commandIssue c "CMD006" .error "Eval command must have an 'Into' clause to store the result."
      (some "Add 'Into variableName' to store the evaluated result.")
  else []) ++
  (if c.target.any hasCredentials then
    commandIssue c "CMD007" .warning
      "Potential credentials detected in URL. Use environment variables instead."
      (some "Use \x7b$globalconfig.password\x7d or similar for sensitive values.")
  else []) ++
  (if c.keyword == .connect && Text.lower (Text.trim c.text) != "connect".toList &&
      !isConnect (Text.trim c.text) then
    commandIssue c "CMD008" .warning "Invalid Connect command format."
      (some ("Use: Connect, Connect username, or Connect " ++
        "username:\x7b$globalconfig.password\x7d".toList))
  else [])

/-! ## All commands of a document -/

/-- Keywords that belong in a suite. -/
def suiteKeywords : List Keyword := [.call, .connect, .eval, .print]

/-- Keywords that belong in a collection. -/
def collectionKeywords : List Keyword := [.call]

/-- The issue of the commands of a document as a whole. -/
def fileTypeRules (fileType : Option FileType) (commands : List Command) : List Issue :=
  let asserts := commands.any (·.keyword.isAssert)
  match fileType with
  | some .testData =>
    if asserts then
      [{ code := "FILE001"
         message := "Test Data files should not contain Assert commands."
         severity := .error
         suggestion := some ("Test Data is for setting up data, not for assertions. " ++
           "Move asserts to Test Case.".toList) }]
    else []
  | some .testSuite =>
    if commands.any fun c => !suiteKeywords.elem c.keyword then
      [{ code := "FILE002"
         message := "Test Suite files should primarily use Call commands to execute Test Cases."
         severity := .warning
         suggestion := some ("A Test Suite orchestrates Test Cases. " ++
           "Server calls should be in individual Test Cases.".toList) }]
    else []
  | some .testCollection =>
    if commands.any fun c => !collectionKeywords.elem c.keyword then
      [{ code := "FILE003"
         message := "Test Collection files should only use Call commands to execute Test Suites."
         severity := .warning
         suggestion := some ("A Test Collection orchestrates Test Suites. " ++
           "All other logic should be in lower-level files.".toList) }]
    else []
  | some .testCase =>
    if asserts then []
    else
      [{ code := "FILE004"
         message := "Test Case files should contain at least one Assert command."
         severity := .warning
         suggestion := some "Add Assert commands to verify the expected outcomes of your test." }]
  | _ => []

/-- The issues of the commands of a document. -/
def commands (d : Document) : List Issue :=
  d.commands.flatMap (command d.fileType) ++ fileTypeRules d.fileType d.commands

end Check

end ScriptAudit
