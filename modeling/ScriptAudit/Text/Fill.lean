import ScriptAudit.Text.Line

/-!
# Filling lines

`Text.gather` puts parts on lines of a given width, as many on each line as fit, with a space
between neighbours. A part that is longer than a line has a line of its own. Main statement: the
lines hold the parts in their order, and nothing else (`flatten_gather`).
-/

namespace ScriptAudit.Text

/-- The parts of each line, given that `line` holds the parts under way, in reverse, that the next
part begins in `column`, and that further lines begin in column `margin`. -/
def gatherFrom (width margin : Nat) : (column : Nat) → (line : List Text) → List Text →
    List (List Text)
  | _, line, [] => if line.isEmpty then [] else [line.reverse]
  | column, line, part :: parts =>
    if column + part.length > width && !line.isEmpty then
      line.reverse :: gatherFrom width margin (margin + part.length + 1) [part] parts
    else gatherFrom width margin (column + part.length + 1) (part :: line) parts

/-- The parts of each line, where the first line begins in column `first` and the others in column
`margin`. -/
def gather (width first margin : Nat) (parts : List Text) : List (List Text) :=
  gatherFrom width margin first [] parts

theorem flatten_gatherFrom (width margin column : Nat) (line parts : List Text) :
    (gatherFrom width margin column line parts).flatten = line.reverse ++ parts := by
  induction parts generalizing column line with
  | nil => cases line <;> simp [gatherFrom]
  | cons part parts ih =>
    unfold gatherFrom
    split
    · simp [ih]
    · simp [ih]

/-- Filling lines neither loses nor moves a part. -/
theorem flatten_gather (width first margin : Nat) (parts : List Text) :
    (gather width first margin parts).flatten = parts := by
  simp [gather, flatten_gatherFrom]

/-- The words of a text on lines of a given width. -/
def fill (width : Nat) (t : Text) : List Text :=
  (gather width 0 0 (words t)).map (joinWith [' '])

end ScriptAudit.Text
