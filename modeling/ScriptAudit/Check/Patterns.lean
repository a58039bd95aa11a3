import ScriptAudit.Check.Issue
import ScriptAudit.Document.Basic

/-!
# Checking substitution patterns

Patterns have to be closed, to hold an identifier and to be well formed. Unclosed and empty ones
are looked for twice, among the patterns of the document and on its lines, and reported once for
each line. Well-formed patterns may be of bad style.
-/

namespace ScriptAudit.Check

/-- The greatest length of an identifier that is not thought unusual. -/
def maxIdentifierLength : Nat := 100

/-- The issue of an opening without a closing brace. -/
def unclosedIssue (line : Nat) (s : Substitution) (rest : Text) : Issue :=
  { code := "PAT002"
    message := "Unclosed substitution pattern starting with \"\x7b" ++ [s.mark, '"']
    severity := .error
    line := some line
    suggestion := some "Ensure all patterns have closing braces: \x7b$variable\x7d"
    context := some ('{' :: s.mark :: rest) }

/-- The issue of a pattern without an identifier. -/
def emptyIssue (line : Nat) (pattern : Text) : Issue :=
  { code := "PAT003"
    message := "Empty substitution pattern: \"" ++ pattern ++ ['"']
    severity := .error
    line := some line
    suggestion := some "Provide an identifier: \x7b$variableName\x7d" }

/-- The issue of a pattern that is not well formed, empty or unclosed. -/
def formIssue? (p : Pattern) : Option Issue :=
  p.problem.map fun
    | .unclosed => unclosedIssue p.line p.substitution p.identifier
    | .empty => emptyIssue p.line p.text
    | .ill =>
      { code := "PAT001"
        message := "Invalid pattern syntax: \"" ++ p.text ++ ['"']
        severity := .error
        line := some p.line
        suggestion := some ("Ensure the pattern uses valid identifier characters: letters, numbers, " ++
          "dots, underscores, and parentheses for function calls.".toList) }

/-! ## The lines of the document -/

/-- The first opening after which no brace is closed, and the text after its mark. -/
def openAtEnd? : Text → Option (Substitution × Text)
  | [] => none
  | c :: cs =>
    match Pattern.opening? (c :: cs) with
    | some s => if cs.elem '}' then openAtEnd? cs else some (s, cs.drop 1)
    | none => openAtEnd? cs

/-- Finds a pattern that holds only blanks. -/
def emptyPattern : Recogniser Text := fun _ t => do
  let s ← Pattern.opening? t
  let blanks := (t.drop 2).takeWhile isBlank
  if (t.drop (2 + blanks.length)).head? = some '}' then
    return ('{' :: s.mark :: blanks ++ ['}'], blanks.length + 3)
  else none

/-- The unclosed and empty patterns of a line. -/
def lineIssues (line : Nat) (t : Text) : List Issue :=
  ((openAtEnd? t).map fun (s, rest) => unclosedIssue line s rest).toList ++
    (emptyPattern.occurrences t).map (emptyIssue line)

/-- Keeps of the unclosed and empty patterns of a line the first one each. -/
def oncePerLine : (seen : List (Text × Option Nat)) → List Issue → List Issue
  | _, [] => []
  | seen, i :: is =>
    if i.code == "PAT002".toList || i.code == "PAT003".toList then
      if seen.elem (i.code, i.line) then oncePerLine seen is
      else i :: oncePerLine ((i.code, i.line) :: seen) is
    else i :: oncePerLine seen is

/-! ## Style -/

/-- What is of bad style in a well-formed pattern. -/
def styleIssue? (p : Pattern) : Option Issue :=
  if Text.contains ['.', '.'] p.identifier then
    some
      { code := "PAT004"
        message := "Pattern \"" ++ p.text ++ "\" contains consecutive dots".toList
        severity := .warning
        line := some p.line
        suggestion := some "Check for typos in the property path." }
  else if (Text.trim p.identifier).head?.any isDigit then
    some
      { code := "PAT005"
        message := "Pattern \"" ++ p.text ++ "\" starts with a number".toList
        severity := .warning
        line := some p.line
        suggestion := some "Variable names should start with a letter." }
  else if p.identifier.length > maxIdentifierLength then
    some
      { code := "PAT006"
        message := "Pattern \"" ++ p.text.take 50 ++ "...\" is unusually long".toList
        severity := .info
        line := some p.line
        suggestion := some "Consider breaking down complex expressions." }
  else none

/-- The issues of substitution patterns. -/
def patterns (d : Document) : List Issue :=
  oncePerLine []
      (d.patterns.filterMap formIssue? ++
        ((Text.lines d.text).mapIdx fun i t => lineIssues (i + 1) t).flatten) ++
    (d.patterns.filter Pattern.isValid).filterMap styleIssue?

end ScriptAudit.Check
