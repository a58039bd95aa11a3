import ScriptAudit.Document.Script

/-!
# Sections

Headings cut the body of a document into sections; what stands before the first heading is a
section without a heading. `Phase.ofHeading` tells by words in the heading which phase of a test a
section describes. A section knows the server calls on its lines.
-/

namespace ScriptAudit

/-- The phases of a test, and all else. -/
inductive Phase
  | arrange
  | act
  | assert
  | other
  deriving DecidableEq

namespace Phase

/-- The name of a phase. -/
def name : Phase → Text
  | arrange => "arrange"
  | act => "act"
  | assert => "assert"
  | other => "other"

/-- The words by which headings name a phase. -/
def words : List (Phase × List Text) :=
  [(arrange, ["arrange".toList, "setup".toList, "given".toList]),
    (act, ["act".toList, "when".toList, "execute".toList]),
    (assert, ["assert".toList, "then".toList, "verify".toList, "expect".toList])]

/-- The phase that a heading names; the earlier phase counts. -/
def ofHeading (t : Text) : Phase :=
  let t := Text.trim (Text.lower t)
  match words.find? fun (_, ws) => ws.any (Text.contains · t) with
  | some (p, _) => p
  | none => other

end Phase

/-- A server call on a line of a section. -/
structure Operation where
  method : Text
  url : Text
  line : Nat
  deriving DecidableEq

/-- The lines of a document between two headings. -/
structure Section where
  phase : Phase
  heading : Text
  content : Text
  first : Nat
  last : Nat
  operations : List Operation

namespace Section

/-- The first and last line of a section, and its heading. -/
structure Bounds where
  first : Nat
  last : Nat
  heading : Text

/-- The bounds of the sections of the given headings up to the last line. -/
def boundsOf (last : Nat) : List Heading → List Bounds
  | [] => []
  | [h] => [⟨h.line, last, h.text⟩]
  | h :: next :: hs => ⟨h.line, next.line - 1, h.text⟩ :: boundsOf last (next :: hs)

/-- The bounds of all sections of a body that begins after the first `start` lines. -/
def bounds (start last : Nat) (headings : List Heading) : List Bounds :=
  let firstHeading := (headings.head?.map Heading.line).getD (last + 1)
  (if start + 1 < firstHeading then [⟨start + 1, firstHeading - 1, []⟩] else []) ++
    boundsOf last headings

/-- The server call that a command makes. -/
def operation? (c : Command) : Option Operation :=
  if c.keyword.isServerCall then
    c.target.map fun url => ⟨Text.upper c.keyword.name, url, c.line⟩
  else none

/-- The section between some bounds. -/
def ofBounds (lines : List Text) (commands : List Command) (b : Bounds) : Section where
  phase := if b.heading.isEmpty then .other else Phase.ofHeading b.heading
  heading := b.heading
  content := Text.joinWith ['\n'] ((lines.take b.last).drop (b.first - 1))
  first := b.first
  last := b.last
  operations :=
    (commands.filter fun c => b.first ≤ c.line && c.line ≤ b.last).filterMap operation?

end Section

end ScriptAudit
