import ScriptAudit.Yaml.Node.Reader
import ScriptAudit.Yaml.Value.Meaning

/-!
# The standard loader

`Yaml.load` reads the only document of a text and gives it the value of its root. Nodes may be nested
to any depth: that the stack of a program is limited is left out.
-/

namespace ScriptAudit.Yaml

/-- The value of a text; without a document it is null. -/
def load (t : Text) : Except Refusal Value :=
  match Document.read? t with
  | none => .error .unsuitable
  | some none => .ok .null
  | some (some n) => n.value?

/-- The loader that the program runs with. -/
instance standard : Loader := ⟨load⟩

end ScriptAudit.Yaml
