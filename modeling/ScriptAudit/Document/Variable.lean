import ScriptAudit.Document.Layout
import ScriptAudit.Document.Pattern
import ScriptAudit.Text.Scan

/-!
# Variables

A variable is defined by the word `Into` before its name and used in a substitution pattern.
`Variable.ofBlocks` lists definitions and usages line by line, the definitions of a line first.
-/

namespace ScriptAudit

/-! ## Words in a line -/

namespace Text

/-- Whether a word may begin after this character. -/
def wordStarts (before : Option Char) : Bool := !before.any isWord

/-- Finds a keyword, blanks and a word after them, and gives the word. -/
def wordAfter (keyword : Text) : Recogniser Text := fun before t => do
  if !wordStarts before then none
  let rest ← afterKeyword? keyword t
  let blanks := rest.takeWhile isBlank
  let word := (rest.drop blanks.length).takeWhile isWord
  if blanks.isEmpty || word.isEmpty then none
  else return (word, keyword.length + blanks.length + word.length)

/-- Finds a keyword that stands alone as a word. -/
def wholeWord (keyword : Text) : Recogniser Unit := fun before t => do
  if !wordStarts before then none
  let rest ← afterKeyword? keyword t
  if rest.head?.any isWord then none else return ((), keyword.length)

end Text

/-! ## Definitions and usages -/

/-- A place where a variable is defined or used. -/
structure Variable where
  name : Text
  line : Nat
  isDefinition : Bool
  /-- The beginning of the line. -/
  context : Text
  deriving DecidableEq

namespace Variable

/-- The greatest length of the text that is shown of a line. -/
def contextLength : Nat := 50

/-- The names that a line defines. -/
def definitions (t : Text) : List Text := (Text.wordAfter "Into").occurrences t

/-- The names that a line uses. -/
def usages (line : Nat) (t : Text) : List Text :=
  (Pattern.ofLine line t).filterMap fun p =>
    if p.problem = some .unclosed then none else Identifier.usedName? p.identifier

/-- The definitions and usages of a line. -/
def ofLine (line : Nat) (t : Text) : List Variable :=
  let context := (Text.trim t).take contextLength
  (definitions t).map (fun n => ⟨n, line, true, context⟩) ++
    (usages line t).map fun n => ⟨n, line, false, context⟩

/-- The definitions and usages of code blocks. -/
def ofBlocks (blocks : List CodeBlock) : List Variable :=
  blocks.flatMap fun b => b.lines.flatMap fun (n, t) => ofLine n t

end Variable

end ScriptAudit
