import ScriptAudit.CommandLine.Arguments
import ScriptAudit.Number.Basic

/-!
# Tasks

A `Task` is what a command line asks for. `Task.ofArguments` reads it from the arguments of the
program.
-/

namespace ScriptAudit.CommandLine

/-- The form in which an answer is printed. -/
inductive Format
  | text
  | json
  deriving DecidableEq

/-- What a command line asks for. -/
inductive Task
  /-- Review a file. -/
  | validate (file : Text) (errorsOnly : Bool)
  /-- Review the documents of a directory. -/
  | validateSuite (directory : Text) (recursive stop : Bool)
  /-- Review the phases of a file. -/
  | checkPhases (file : Text)
  /-- Review the commands of a file. -/
  | checkCommands (file : Text)
  /-- List the rules of all checks. -/
  | rules
  /-- Execute a test, with another interpreter if one is named. -/
  | run (file : Text) (interpreter url user password : Option Text) (timeout : Option Number)
      (further : List Text)
  /-- Review the output of the interpreter. -/
  | analyze (file : Text)
  /-- Tell what is known about the runner. -/
  | runnerStatus

namespace Reading

/-- The value that is given last with a parameter. -/
def value? (r : Reading) (p : Parameter) : Option Value := r.given.lookup p

/-- Whether a parameter is given. -/
def has (r : Reading) (p : Parameter) : Bool := (r.value? p).isSome

/-- The text that is given with a parameter. -/
def text? (r : Reading) (p : Parameter) : Option Text :=
  match r.value? p with
  | some (.text t) => some t
  | _ => none

/-- The number that is given with a parameter. -/
def number? (r : Reading) (p : Parameter) : Option Number :=
  match r.value? p with
  | some (.number x) => some (.float x)
  | _ => none

/-- The texts that are given with a parameter. -/
def texts (r : Reading) (p : Parameter) : List Text :=
  match r.value? p with
  | some (.texts ts) => ts
  | _ => []

/-- The form in which the answer is to be printed. -/
def format (r : Reading) : Format := if r.text? .format = some "json" then .json else .text

/-- The operand; the mark that ends the names is no part of it. -/
def operandText (r : Reading) : Text := ((r.operand.getD []).erase ['-', '-']).headD []

end Reading

namespace Task

/-- The task of a command. -/
def ofReading? (command : String) (r : Reading) : Option Task :=
  let file := r.operandText
  match command with
  | "validate" => some (validate file (r.has .errorsOnly))
  | "validate-suite" => some (validateSuite file (!r.has .noRecursive) (r.has .stopOnError))
  | "check-aaa" => some (checkPhases file)
  | "check-commands" => some (checkCommands file)
  | "rules" => some rules
  | "run" =>
    some (run file (r.text? .interpreter) (r.text? .url) (r.text? .user) (r.text? .password)
      (r.number? .timeout) (r.texts .further))
  | "analyze" => some (analyze file)
  | "runner-status" => some runnerStatus
  | _ => none

/-- The paths that a task names. -/
def paths : Task → List Text
  | validate file _ | checkPhases file | checkCommands file | analyze file => [file]
  | validateSuite directory _ _ => [directory]
  | run file interpreter _ _ _ _ _ => file :: interpreter.toList
  | rules | runnerStatus => []

/-- The complaint about arguments that nobody has taken. -/
def refuseUnknown (upper : Level) (unknown : List Text) : Except Stop Unit :=
  if unknown.isEmpty then .ok ()
  else .error (.misuse upper ("unrecognized arguments: ".toList ++ Text.joinWith [' '] unknown))

/-- The complaint about a command that does not exist. -/
def noCommand (upper : Level) (name : Text) : Stop :=
  .misuse upper ("argument command: invalid choice: ".toList ++ Text.quoted name ++
    " (choose from ".toList ++
    Text.joinWith ", " (CommandGrammar.all.map fun c => Text.quoted c.name) ++ [')'])

/-- Reads the task and the form of the answer; there is none when no command is named. -/
def ofArguments (program : Text) (arguments : List Text) :
    Except Stop (Option (Task × Format)) := do
  let upper := upperLevel program
  let r ← upper.read arguments
  match r.operand.getD [] with
  | [] =>
    refuseUnknown upper r.unknown
    return none
  | name :: rest =>
    match CommandGrammar.all.find? (·.name == name) with
    | none => throw (noCommand upper name)
    | some c =>
      let inner ← (c.level program).read rest
      refuseUnknown upper (r.unknown ++ inner.unknown)
      return (ofReading? (String.ofList name) inner).map fun t => (t, inner.format)

end Task

end ScriptAudit.CommandLine
