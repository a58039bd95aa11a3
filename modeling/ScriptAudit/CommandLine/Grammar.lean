import ScriptAudit.Text.Basic

/-!
# The grammar of the command line

A `Level` describes what may be written at one level of the command line: parameters, which start
with a dash, and at most one operand. At the upper level the operand is the name of a command with
everything that follows it; each command has a level of its own.
-/

namespace ScriptAudit.CommandLine

/-- What follows a parameter. -/
inductive Expectation
  /-- Nothing; the parameter itself says it all. -/
  | nothing
  /-- Nothing; the parameter asks for help. -/
  | help
  /-- Any text. -/
  | word
  /-- One of some texts. -/
  | oneOf (choices : List Text)
  /-- A number. -/
  | number
  /-- Any number of texts. -/
  | words
  deriving DecidableEq

/-- Something that is named on the command line. -/
structure Parameter where
  /-- The names, each with its dashes; the first one comes first in the usage. -/
  names : List Text
  expects : Expectation
  summary : Option Text := none
  deriving DecidableEq

/-- What may be written without a name. -/
inductive Operand
  /-- One text. -/
  | one (name summary : Text)
  /-- The name of a command, and whatever follows it. -/
  | command (commands : List (Text × Text))

/-- One level of the command line. -/
structure Level where
  /-- What has to be written before. -/
  title : Text
  summary : Option Text := none
  operand : Option Operand := none
  parameters : List Parameter

/-- A command. -/
structure CommandGrammar where
  name : Text
  summary : Text
  operand : Option Operand := none
  parameters : List Parameter

namespace Parameter

/-- The parameter that asks for help. -/
def help : Parameter := ⟨["-h", "--help"], .help, some "show this help message and exit"⟩

/-- The parameter that asks for more messages. -/
def verbose : Parameter := ⟨["-v", "--verbose"], .nothing, none⟩

/-- The parameter that says in which form an answer is printed. -/
def format : Parameter := ⟨["--format", "-f"], .oneOf ["text", "json"], none⟩

/-- The parameter that keeps errors only. -/
def errorsOnly : Parameter :=
  ⟨["--errors-only"], .nothing, some "Only report errors (non-strict mode)"⟩

/-- The parameter that keeps to one directory. -/
def noRecursive : Parameter :=
  ⟨["--no-recursive"], .nothing, some "Do not search subdirectories"⟩

/-- The parameter that ends a review early. -/
def stopOnError : Parameter :=
  ⟨["--stop-on-error"], .nothing, some "Stop at the first invalid file"⟩

/-- The parameter that names the interpreter. -/
def interpreter : Parameter :=
  ⟨["--sar-path"], .word, some "ScriptARest executable (defaults to SAR_SCRIPT_A_REST_PATH)"⟩

/-- The parameter that names the server. -/
def url : Parameter := ⟨["--server-url"], .word, some "Server URL override"⟩

/-- The parameter that names the user. -/
def user : Parameter := ⟨["--username", "-u"], .word, some "Username override"⟩

/-- The parameter that gives the password. -/
def password : Parameter := ⟨["--password", "-p"], .word, some "Password override"⟩

/-- The parameter that limits the time. -/
def timeout : Parameter := ⟨["--timeout"], .number, some "Timeout in seconds"⟩

/-- The parameter that gives further arguments for the interpreter. -/
def further : Parameter :=
  ⟨["--extra"], .words, some "Extra arguments passed to ScriptARest"⟩

end Parameter

namespace CommandGrammar

/-- The operand that names a file or the standard input. -/
def fileOrInput : Operand := .one "file" "Path to the .mkd file, or '-' for stdin"

/-- All commands. -/
def all : List CommandGrammar :=
  [{ name := "validate"
     summary := "Validate a TAR file (MCP: validate_file)"
     operand := some (.one "file" "Path to the .mkd file")
     parameters := [.errorsOnly, .format] },
    { name := "validate-suite"
      summary := "Validate all test files in a directory (MCP: validate_suite)"
      operand := some (.one "directory" "Test suite directory")
      parameters := [.noRecursive, .stopOnError, .format] },
    { name := "check-aaa"
      summary := "Check Arrange-Act-Assert structure (MCP: check_aaa_structure)"
      operand := some fileOrInput
      parameters := [.format] },
    { name := "check-commands"
      summary := "Check TAR command usage (MCP: check_commands)"
      operand := some fileOrInput
      parameters := [.format] },
    { name := "rules"
      summary := "Show validation rules (MCP: get_validation_rules)"
      parameters := [.format] },
    { name := "run"
      summary := "Run a test with ScriptARest (MCP: run_test)"
      operand := some (.one "file" "Path to the .mkd file")
      parameters := [.interpreter, .url, .user, .password, .timeout, .further, .format] },
    { name := "analyze"
      summary := "Analyze saved ScriptARest output (MCP: analyze_results)"
      operand := some (.one "output_file" "File with the raw output, or '-' for stdin")
      parameters := [.format] },
    { name := "runner-status"
      summary := "Show runner configuration (MCP: get_runner_status)"
      parameters := [.format] }]

/-- The level of a command. -/
def level (program : Text) (c : CommandGrammar) : Level where
  title := program ++ ' ' :: c.name
  operand := c.operand
  parameters := .help :: c.parameters

end CommandGrammar

/-- The upper level, for a program of the given name. -/
def upperLevel (program : Text) : Level where
  title := program
  summary := some "TAR Test Analyzer"
  operand := some (.command (CommandGrammar.all.map fun c => (c.name, c.summary)))
  parameters := [.help, .verbose]

end ScriptAudit.CommandLine
