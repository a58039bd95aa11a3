import ScriptAudit.Text.Line

/-!
# Frontmatter

A document may begin with a block of settings between two delimiters. A delimiter is a line of at
least three dashes; blank lines after it belong to it. `Frontmatter.split?` cuts a text into the
block and the body, and `Frontmatter.bodyStart` counts the lines before the body.
-/

namespace ScriptAudit

/-- A block of settings, and the text after it. -/
structure Frontmatter where
  block : Text
  body : Text

namespace Frontmatter

/-- The part of some blanks that belongs to a delimiter: at the end of the text all of them, else
those before the last line feed. -/
def delimiterBlanks? (blanks : Text) (atEnd : Bool) : Option Text :=
  if atEnd then some blanks
  else if blanks.elem '\n' then some ((blanks.reverse.dropWhile (· ≠ '\n')).drop 1).reverse
  else none

/-- The length of the delimiter that the text begins with. -/
def delimiter? (t : Text) : Option Nat :=
  let dashes := t.takeWhile (· == '-')
  let rest := t.drop dashes.length
  let blanks := rest.takeWhile isBlank
  if dashes.length < 3 then none
  else
    (delimiterBlanks? blanks (blanks.length == rest.length)).map fun b => dashes.length + b.length

/-- Looks for a delimiter at the beginning of a line, and gives the text before and after it. -/
def cut? : (lineStart : Bool) → Text → Option (Text × Text)
  | _, [] => none
  | lineStart, c :: cs =>
    match if lineStart then delimiter? (c :: cs) else none with
    | some n => some ([], (c :: cs).drop n)
    | none => (cut? (c == '\n') cs).map fun (before, after) => (c :: before, after)

/-- The block of settings and the body of a text that begins with a delimiter. -/
def split? (t : Text) : Option Frontmatter := do
  let n ← delimiter? t
  let (block, body) ← cut? false (t.drop n)
  return ⟨block, body⟩

/-- The number of lines up to the one of the second delimiter. -/
def bodyStart (t : Text) (f : Frontmatter) : Nat :=
  (Text.trimRight (t.take (t.length - f.body.length))).count '\n' + 1

end Frontmatter

end ScriptAudit
