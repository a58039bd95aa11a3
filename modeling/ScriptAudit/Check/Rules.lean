import ScriptAudit.Check.Metadata
import ScriptAudit.Check.Phases
import ScriptAudit.Check.Naming
import ScriptAudit.Check.Patterns
import ScriptAudit.Check.Commands
import ScriptAudit.Text.Quoted

/-!
# Rules

Each check is described by a `RuleSet`: its name, how grave its issues are in general, and its
settings.
-/

namespace ScriptAudit

/-- The value of a setting of a check. -/
inductive Setting
  | flag (value : Bool)
  | number (value : Nat)
  | word (value : Text)
  | words (values : List Text)

namespace Setting

/-- A setting as a value. -/
def json : Setting → Json
  | flag b => .bool b
  | number n => Json.nat n
  | word t => .str t
  | words ts => Json.texts ts

/-- A setting as it is listed. -/
def text : Setting → Text
  | flag b => if b then "True" else "False"
  | number n => Text.ofNat n
  | word t => t
  | words ts => '[' :: Text.joinWith ", " (ts.map Text.quoted) ++ [']']

end Setting

/-- The description of a check. -/
structure RuleSet where
  name : Text
  enabled : Bool
  severity : Severity
  options : List (Text × Setting)

namespace RuleSet

/-- A description as an object. -/
def json (r : RuleSet) : Json :=
  Json.object
    [("name", .str r.name), ("enabled", .bool r.enabled), ("severity", .str r.severity.name),
      ("options", .obj (r.options.map fun (k, s) => (k, s.json)))]

/-- The rules of the metadata. -/
def metadata : RuleSet where
  name := "metadata"
  enabled := true
  severity := .error
  options :=
    [("valid_file_types", .words (FileType.all.map FileType.name)),
      ("valid_modes", .words (Mode.all.map Mode.name)),
      ("types_requiring_mode", .words (FileType.withMode.map FileType.name))]

/-- The rules of the phases of a test. -/
def phases : RuleSet where
  name := "aaa-structure"
  enabled := true
  severity := .error
  options :=
    [("applies_to_types", .words [FileType.testCase.name]),
      ("required_sections", .words [Phase.act.name, Phase.assert.name]),
      ("optional_sections", .words [Phase.arrange.name]),
      ("enforce_order", .flag true)]

/-- The rules of names. -/
def naming : RuleSet where
  name := "naming-conventions"
  enabled := true
  severity := .error
  options :=
    [("enforce_case", .word "camelCase"),
      ("min_length", .number Naming.minLength),
      ("max_length", .number Naming.maxLength),
      ("reserved_words", .words Naming.reserved),
      ("built_in_variables", .words Naming.builtIns)]

/-- The rules of substitution patterns. -/
def patterns : RuleSet where
  name := "substitution-patterns"
  enabled := true
  severity := .warning
  options :=
    [("allow_all_cases", .flag true),
      ("validate_syntax", .flag true),
      ("max_identifier_length", .number Check.maxIdentifierLength)]

/-- The rules of commands. -/
def commands : RuleSet where
  name := "command-syntax"
  enabled := true
  severity := .error
  options :=
    [("validate_server_calls", .flag true),
      ("validate_assert_placement", .flag true),
      ("commands_requiring_into", .words (Check.needInto.map Keyword.name)),
      ("call_extensions", .words Check.callExtensions)]

/-- All rules, in the order in which the checks are made. -/
def all : List RuleSet := [metadata, phases, naming, patterns, commands]

/-- All rules by their name, as an object. -/
def allJson : Json := .obj (all.map fun r => (r.name, r.json))

end RuleSet

end ScriptAudit
