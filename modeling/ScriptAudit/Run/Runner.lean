import ScriptAudit.Run.Configuration
import ScriptAudit.Text.Scan
import ScriptAudit.Text.Case
import ScriptAudit.Json.Basic

/-!
# Runners

A `Runner` holds what is needed to execute tests: the interpreter, the server, the user and a time
limit. A `TestRun` asks for the execution of one test and may replace parts of these. The arguments
of the interpreter follow from both; `Arguments.mask` hides the passwords among them.
-/

namespace ScriptAudit

/-- What is needed to execute tests. -/
structure Runner where
  path : Text := []
  url : Text := []
  user : Text := []
  password : Text := []
  /-- How many seconds a test may take. -/
  timeout : Number := .int Configuration.defaultTimeout

/-- The wish to execute one test; what is given takes precedence over what the runner holds. -/
structure TestRun where
  file : Text
  url : Option Text := none
  user : Option Text := none
  password : Option Text := none
  /-- Arguments to be handed on as they are. -/
  further : List Text := []
  timeout : Option Number := none

namespace Runner

/-- The runner that is configured. -/
def ofBindings (bs : Bindings) : Runner :=
  let text (k : Configuration.Key) := (bs.get? k.name).getD []
  { path := text .path
    url := text .url
    user := text .user
    password := text .password
    timeout := .float (Configuration.timeout bs) }

/-- The runner that is configured. -/
def configured (files : Files) (environment : Bindings) (project : Text) : Except Fault Runner :=
  return ofBindings (← Configuration.load files environment project)

/-- Whether both the interpreter and the server are known. -/
def isComplete (r : Runner) : Bool := !r.path.isEmpty && !r.url.isEmpty

/-- A runner as an object, without the password. -/
def json (r : Runner) : Json :=
  Json.object
    [("script_a_rest_path", .str r.path), ("server_url", .str r.url), ("username", .str r.user),
      ("has_password", .bool (!r.password.isEmpty)), ("timeout_seconds", .num r.timeout)]

/-- What is said when there is no interpreter at a path. -/
def noInterpreter (path : Text) : Text := "ScriptARest.exe not found at: " ++ path

/-- What is said about something that is not configured; nothing where it is. -/
def missing (what : String) (given : Text) : List Text :=
  if given.isEmpty then [what.toList ++ " is not configured".toList] else []

/-- What is wrong with the interpreter. -/
def interpreterProblem (files : Files) (path : Text) : Except Fault (List Text) := do
  if path.isEmpty then return missing "ScriptARest path" path
  else if ← files.has (Path.ofText path) then return []
  else return [noInterpreter path]

/-- What has to be mended before tests can be executed. -/
def problems (files : Files) (r : Runner) : Except Fault (List Text) := do
  return (← interpreterProblem files r.path) ++ missing "Server URL" r.url ++
    missing "Username" r.user ++ missing "Password" r.password

/-- The arguments of the interpreter for a file of the given name. -/
def arguments (r : Runner) (t : TestRun) (fileName : Text) : List Text :=
  ["serverurl=".toList ++ t.url.getD r.url,
    "username=".toList ++ t.user.getD r.user,
    "password=".toList ++ t.password.getD r.password,
    "fileToRead=".toList ++ fileName] ++ t.further

/-- How many seconds a test may take: what is asked for, else what the runner says, where zero
says nothing. -/
def limit (r : Runner) (t : TestRun) : Number :=
  let given := (t.timeout.toList ++ [r.timeout]).find? (!·.isZero)
  given.getD (.int Configuration.defaultTimeout)

end Runner

namespace Arguments

/-- What stands in place of a password. -/
def asterisks : Text := "****"

/-- An argument with the password after `password=` masked. Only an argument that is a single
line, which a line feed may end, is one that gives a password. -/
def maskPassword (t : Text) : Text :=
  match Text.afterKeyword? "password=" t with
  | none => t
  | some rest =>
    let ending := rest.dropWhile (· ≠ '\n')
    if ending.length ≤ 1 then t.take (t.length - rest.length) ++ asterisks ++ ending else t

/-- The password of an address: after a colon and two slashes come a user, a colon, the password
and an at sign. -/
def addressPassword : Recogniser Text := fun _ t => do
  let rest ← Text.after? "://" t
  let user := rest.takeWhile fun c => c ≠ '/' && !isBlank c && c ≠ ':' && c ≠ '@'
  let afterUser ← Text.after? [':'] (rest.drop user.length)
  let password := afterUser.takeWhile fun c => c ≠ '/' && !isBlank c && c ≠ '@'
  let _ ← Text.after? ['@'] (afterUser.drop password.length)
  if user.isEmpty || password.isEmpty then none
  else
    some ("://".toList ++ user ++ [':'] ++ asterisks ++ ['@'],
      user.length + password.length + 5)

/-- An argument with its passwords masked. -/
def mask (t : Text) : Text := addressPassword.replaced (maskPassword t)

end Arguments

end ScriptAudit
