import ScriptAudit.Json.Basic
import ScriptAudit.Text.Case

/-!
# Issues

An `Issue` is what a check finds: a code, a message, how grave it is, and where it is known the
line, a suggestion and the text that it is about.
-/

namespace ScriptAudit

/-- How grave an issue is. -/
inductive Severity
  | error
  | warning
  | info
  deriving DecidableEq

namespace Severity

/-- The name of a severity. -/
def name : Severity → Text
  | error => "error"
  | warning => "warning"
  | info => "info"

end Severity

/-- What a check finds. -/
structure Issue where
  code : Text
  message : Text
  severity : Severity
  line : Option Nat := none
  suggestion : Option Text := none
  context : Option Text := none
  deriving DecidableEq

namespace Issue

/-- Whether an issue is an error. -/
def isError (i : Issue) : Bool := i.severity == .error

/-- An issue as an object; what is not known is left out. -/
def json (i : Issue) : Json :=
  .obj ([("code".toList, .str i.code), ("message".toList, .str i.message),
      ("severity".toList, .str i.severity.name)] ++
    Json.field? "line" (i.line.map Json.nat) ++
    Json.field? "suggestion" (i.suggestion.map .str) ++
    Json.field? "context" (i.context.map .str))

end Issue

end ScriptAudit
