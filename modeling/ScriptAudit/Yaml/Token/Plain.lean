import ScriptAudit.Yaml.Token.Fold

/-!
# Plain scalars

A scalar without quotation marks ends before a colon followed by space, before a comment, before a
marker of a document, at a line that is not indented enough and, inside brackets, at a bracket or a
comma.
-/

namespace ScriptAudit.Yaml

/-- A plain scalar, the place after it, and whether it was left over the end of a line. -/
structure PlainScalar where
  value : Text
  after : Cursor
  broken : Bool

namespace PlainScalar

/-- The characters that structure a flow collection. -/
def isFlowMark (c : Char) : Bool := c == ',' || c == '[' || c == ']' || c == '{' || c == '}'

/-- Reads the words of a line and the gaps between them. `value` is the scalar so far, last
character first; `inGap` tells whether a gap is under way. After a gap the scalar may end before
the next word. -/
def scan (flow : Bool) (indent : Nat) :
    (fuel : Nat) → (inGap : Bool) → (value : Text) → Gap → Cursor → Option PlainScalar
  | 0, _, _, _, _ => none
  | fuel + 1, true, value, gap, c =>
    match c.rest with
    | [] => scan flow indent fuel false value gap c
    | x :: _ =>
      if isBlank x then
        if gap.broken && c.column < indent && x == '\t' then none
        else scan flow indent fuel true value (gap.blank x) c.next
      else if isBreak x then
        scan flow indent fuel true value (gap.lineBreak c.lineBreak) c.nextLine
      else if (!flow && c.column < indent) || c.atMarker || x == '#' then
        some ⟨value.reverse, c, gap.broken⟩
      else scan flow indent fuel false value gap c
  | fuel + 1, false, value, gap, c =>
    match c.rest with
    | [] => some ⟨value.reverse, c, gap.broken⟩
    | x :: _ =>
      if isBlank x || isBreak x then scan flow indent fuel true value gap c
      else if flow && x == ':' && c.at? 1 (fun y => isFlowMark y || y == '?') then none
      else if (x == ':' && c.spaceAt 1) || (flow && isFlowMark x) then
        some ⟨value.reverse, c, gap.broken⟩
      else scan flow indent fuel false (x :: (gap.text.reverse ++ value)) {} c.next

/-- The plain scalar that begins here; its further lines have at least `indent` columns before
them, unless it stands inside brackets. -/
def read? (flow : Bool) (indent : Nat) (c : Cursor) : Option PlainScalar :=
  scan flow indent (3 * c.rest.length + 3) false [] {} c

end PlainScalar

end ScriptAudit.Yaml
