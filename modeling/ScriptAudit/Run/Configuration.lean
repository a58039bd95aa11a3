import ScriptAudit.Files.Access
import ScriptAudit.Text.Line

/-!
# Configuration

What is configured comes from a file of assignments and from the variables of the environment,
which take precedence. `Configuration.load` brings both together; the file is the first one of
several candidates that is there and can be read.
-/

namespace ScriptAudit

/-- Named values; no name occurs twice. -/
abbrev Bindings := List (Text × Text)

namespace Bindings

/-- Gives a name its value: in its place when it is there already, else at the end. -/
def put (name value : Text) : Bindings → Bindings
  | [] => [(name, value)]
  | (n, v) :: bs => if n == name then (n, value) :: bs else (n, v) :: put name value bs

/-- The bindings without a name. -/
def drop (name : Text) (bs : Bindings) : Bindings := bs.filter (·.1 != name)

/-- The value of a name. -/
def get? (name : Text) (bs : Bindings) : Option Text := List.lookup name bs

/-- The value of a name, if it has one that is not empty. -/
def given? (name : Text) (bs : Bindings) : Option Text := (bs.get? name).filter (!·.isEmpty)

end Bindings

namespace Configuration

/-- What may be configured. -/
inductive Key
  /-- The path of the interpreter. -/
  | path
  /-- The address of the server. -/
  | url
  /-- The name of the user. -/
  | user
  /-- The password of the user. -/
  | password
  /-- How many seconds a test may take. -/
  | seconds
  /-- How many milliseconds a test may take, where no seconds are given. -/
  | milliseconds
  /-- The number of the socket on which the tool server listens. -/
  | serverPort
  deriving DecidableEq

namespace Key

/-- The name of a key, in files and in the environment. -/
def name : Key → Text
  | path => "SAR_SCRIPT_A_REST_PATH"
  | url => "SAR_SERVER_URL"
  | user => "SAR_USERNAME"
  | password => "SAR_PASSWORD"
  | seconds => "SAR_TIMEOUT_SECONDS"
  | milliseconds => "SAR_TIMEOUT_MS"
  | serverPort => "FASTMCP_PORT"

/-- All keys. -/
def all : List Key := [path, url, user, password, seconds, milliseconds, serverPort]

end Key

/-- The variable of the environment that names the first candidate. -/
def fileVariable : Text := "TAR_ANALYZER_CONFIG"

/-- The name of the other candidates. -/
def fileName : Text := ".env"

/-! ## Files of assignments -/

/-- The assignment that a line makes: a name, an equals sign and a value, which may stand in
quotation marks. A line that starts with a number sign makes none. -/
def assignment? (line : Text) : Option (Text × Text) :=
  let t := Text.trim line
  if t.head? = some '#' then none
  else
    (Text.cut? ['='] t).map fun (name, value) =>
      (Text.trim name,
        Text.trimOf (· == '\'') (Text.trimOf (· == '"') (Text.trim value)))

/-- The assignments of a text; the last one to a name counts. -/
def assignments (t : Text) : Bindings :=
  (Text.lines t).foldl (fun bs line =>
    match assignment? line with
    | some (name, value) => bs.put name value
    | none => bs) []

/-- The files that may hold assignments, in the order in which they are looked for. -/
def candidates (environment : Bindings) (project : Text) : List Path :=
  ((environment.given? fileVariable).map Path.ofText).toList ++
    [Path.ofText fileName, (Path.ofText project).join [fileName]]

/-- The text of the first candidate that is there and can be read. -/
def firstText (files : Files) : List Path → Except Fault (Option Text)
  | [] => return none
  | p :: ps => do
    if ← files.has p then
      match files.readText p with
      | .ok t => return some t
      | .error (.file _ _) => firstText files ps
      | .error f => throw f
    else firstText files ps

/-! ## What is configured -/

/-- The bindings, with the values of the keys that are set in the environment. -/
def overlay (environment : Bindings) (bs : Bindings) : Bindings :=
  Key.all.foldl (fun bs k =>
    match environment.get? k.name with
    | some value => bs.put k.name value
    | none => bs) bs

/-- What is configured. -/
def load (files : Files) (environment : Bindings) (project : Text) : Except Fault Bindings := do
  let t ← firstText files (candidates environment project)
  return overlay environment ((t.map assignments).getD [])

/-- How many seconds a test may take where nothing else is said. -/
def defaultTimeout : Nat := 600

/-- How many seconds a test may take. -/
def timeout (bs : Bindings) : Float :=
  let seconds := (bs.given? Key.seconds.name).bind Numeral.float?
  let milliseconds := (bs.given? Key.milliseconds.name).bind Numeral.float?
  (seconds <|> milliseconds.map (· / 1000)).getD (Float.ofNat defaultTimeout)

/-- The number of the socket on which the tool server listens where none is configured. -/
def defaultServerPort : Int := 8979

/-- The number of the socket on which the tool server listens. -/
def serverPort (files : Files) (environment : Bindings) (project : Text) : Except Fault Int :=
  match load files environment project with
  | .ok bs =>
    match bs.get? Key.serverPort.name with
    | some t => return (Numeral.int? t).toOption.getD defaultServerPort
    | none => return defaultServerPort
  | .error (.malformedText _) => return defaultServerPort
  | .error f => throw f

end Configuration

end ScriptAudit
