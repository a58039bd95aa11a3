import ScriptAudit.Yaml.Value

/-!
# Loaders

What the settings of a document mean is told by a `Loader`, whatever that may be: it gives a block
of text a value, refuses the block, or ends in a fault. Documents are read and checked with any
loader; `Yaml.standard` is the one that the program runs with.
-/

namespace ScriptAudit.Yaml

/-- Why a text, or a node of it, has no value. -/
inductive Refusal
  /-- The text is not well formed, a node does not suit its type, or the type is not known. -/
  | unsuitable
  /-- A text does not suit the type that it is given. -/
  | fault (f : Fault)

/-- What gives a block of settings its value. -/
class Loader where
  load : Text → Except Refusal Value

/-- A loader that works on the text alone: no fault of it is that of a file. -/
class LawfulLoader [Loader] : Prop where
  load_ne_file (t : Text) (fault : FileFault) (path : Text) :
    Loader.load t ≠ .error (.fault (.file fault path))

end ScriptAudit.Yaml
