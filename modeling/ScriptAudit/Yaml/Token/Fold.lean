import ScriptAudit.Yaml.Cursor

/-!
# Folding lines

Inside a flow scalar blanks and line breaks between two words are folded: blanks on one line stay
as they are, a single line break becomes a space, and of several line breaks all but the first
stay. `Gap` is what has been read since the last word, `Gap.text` what it becomes.
-/

namespace ScriptAudit.Yaml

/-- The blanks and line breaks since the last word. -/
structure Gap where
  /-- Blanks before any line break, last one first. -/
  blanks : Text := []
  /-- Whether the gap goes over the end of a line. -/
  broken : Bool := false
  /-- The first line break. -/
  first : Text := []
  /-- The further line breaks. -/
  more : Text := []

namespace Gap

/-- The gap with one more blank. -/
def blank (g : Gap) (c : Char) : Gap := if g.broken then g else { g with blanks := c :: g.blanks }

/-- The gap with one more line break. -/
def lineBreak (g : Gap) (t : Text) : Gap :=
  if g.broken then { g with more := g.more ++ t } else { blanks := [], broken := true, first := t }

/-- What the gap becomes in the scalar. -/
def text (g : Gap) : Text :=
  if g.broken then
    if g.first = ['\n'] then if g.more.isEmpty then [' '] else g.more
    else g.first ++ g.more
  else g.blanks.reverse

end Gap

end ScriptAudit.Yaml
