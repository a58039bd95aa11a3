import ScriptAudit.Check.Issue
import ScriptAudit.Document.Variable

/-!
# Checking the names of variables

Names begin with a small letter, are made of letters and digits, and are neither too short nor too
long nor reserved. A variable should be defined before it is used, and used once it is defined.
-/

namespace ScriptAudit

namespace Naming

/-- The least length of a name. -/
def minLength : Nat := 2

/-- The greatest length of a name. -/
def maxLength : Nat := 50

/-- The words that are no names, in alphabetical order. -/
def reserved : List Text :=
  ["data".toList, "error".toList, "request".toList, "response".toList, "result".toList,
    "test".toList]

/-- The variables that exist without a definition, in alphabetical order. -/
def builtIns : List Text :=
  ["globalconfig".toList, "header".toList, "input".toList, "response".toList, "result".toList]

/-- Whether a name belongs to a variable that exists without a definition. -/
def isBuiltIn (name : Text) : Bool := builtIns.elem (Text.lower name)

/-! ## Single names -/

/-- A word with a capital letter in front and small letters after it. -/
def capitalized (t : Text) : Text := Text.upper (t.take 1) ++ Text.lower (t.drop 1)

/-- The words of a name joined, the first one in small letters and the others capitalized. -/
def joined : List Text → Text
  | [] => []
  | t :: ts => Text.lower t ++ ts.flatMap capitalized

/-- The name in camel case: words between underscores, or else between hyphens, are joined; a name
of one word gets a small first letter. -/
def toCamelCase (name : Text) : Text :=
  let joinAt (sep : Char) : Text :=
    let words := (Text.splitAt sep name).filter (!·.isEmpty)
    if words.isEmpty then name else joined words
  if name.elem '_' then joinAt '_'
  else if name.elem '-' then joinAt '-'
  else Text.lower (name.take 1) ++ name.drop 1

/-- Whether a name is in camel case; a line feed at its end does not count. -/
def isCamelCase (name : Text) : Bool :=
  let name := if name.getLast? == some '\n' then name.dropLast else name
  match name with
  | [] => false
  | c :: cs => c.isLower && cs.all Char.isAlphanum

/-- What is wrong with a name, if anything is. -/
def problem? (name : Text) : Option Text :=
  if name.length < minLength then
    some ("Variable name should be at least " ++ Text.ofNat minLength ++ " characters".toList)
  else if name.length > maxLength then
    some ("Variable name should be at most " ++ Text.ofNat maxLength ++ " characters".toList)
  else if reserved.elem (Text.lower name) then
    some (['"'] ++ name ++ "\" is a reserved word - use a more descriptive name like \"".toList ++
      name ++ "Data\" or \"".toList ++ name ++ "Value\"".toList)
  else if isCamelCase name then none
  else some ("Use camelCase: \"" ++ toCamelCase name ++ ['"'])

/-! ## Names of a document -/

/-- What is said about a variable at its first occurrence. -/
structure Verdict where
  occurrence : Variable
  problem : Option Text

/-- The occurrences of names that have not been seen before. -/
def firsts : (seen : List Text) → List Variable → List Variable
  | _, [] => []
  | seen, v :: vs =>
    if seen.elem v.name then firsts seen vs else v :: firsts (v.name :: seen) vs

/-- Whether some definition has this name. -/
def isDefined (name : Text) (vs : List Variable) : Bool :=
  vs.any fun v => v.isDefinition && v.name == name

/-- Whether some usage has this name. -/
def isUsed (name : Text) (vs : List Variable) : Bool :=
  vs.any fun v => !v.isDefinition && v.name == name

/-- What is said about the names in order of their first occurrence. Built-in variables are passed
over unless they are defined. -/
def verdicts (vs : List Variable) : List Verdict :=
  ((firsts [] vs).filter fun v => !isBuiltIn v.name || isDefined v.name vs).map fun v =>
    ⟨v, problem? v.name⟩

/-- The first line known for the definitions of a name, with one more variable looked at. -/
def noteDefinition (name : Text) (first? : Option Nat) (v : Variable) : Option Nat :=
  if v.isDefinition && v.name == name then some (min v.line (first?.getD v.line)) else first?

/-- The first line on which a name is defined, in whatever order the variables are. -/
def firstDefinition? (name : Text) (vs : List Variable) : Option Nat :=
  vs.foldl (noteDefinition name) none

/-- Whether a name is defined on the line or before it. -/
def isDefinedBy (name : Text) (line : Nat) (vs : List Variable) : Bool :=
  (firstDefinition? name vs).any (· ≤ line)

/-! ## Issues -/

/-- The issue of a name that something is wrong with. -/
def nameIssue (v : Variable) (problem : Text) : Issue :=
  { code := "NAME001"
    message := "Variable \"" ++ v.name ++ "\" does not follow camelCase naming convention".toList
    severity := .error
    line := some v.line
    context := some v.context
    suggestion := some problem }

/-- The issue of a usage before any definition. -/
def usageIssue (v : Variable) : Issue :=
  { code := "NAME002"
    message := "Variable \"" ++ v.name ++ "\" is used before it is defined".toList
    severity := .warning
    line := some v.line
    context := some v.context
    suggestion := some ("Define \"" ++ v.name ++
      "\" with Eval, Get, Create or similar (Into ".toList ++ v.name ++
      ") before using it, or check for typos".toList) }

/-- The issue of a definition without any usage. -/
def definitionIssue (v : Variable) : Issue :=
  { code := "NAME003"
    message := "Variable \"" ++ v.name ++ "\" is defined but never used".toList
    severity := .info
    line := some v.line
    context := some v.context }

/-- The issues of names. -/
def nameIssues (vs : List Variable) : List Issue :=
  (verdicts vs).filterMap fun v => v.problem.map (nameIssue v.occurrence)

/-- Whether a usage is expected to have a definition: names with a capital letter have not. -/
def needsDefinition (name : Text) : Bool := !isBuiltIn name && !name.head?.any isUpper

/-- The issues of usages before any definition, ordered by line. -/
def usageIssues (vs : List Variable) : List Issue :=
  let usages := (vs.filter (!·.isDefinition)).mergeSort fun a b => a.line ≤ b.line
  (usages.filter fun v => needsDefinition v.name && !isDefinedBy v.name v.line vs).map usageIssue

/-- The issues of definitions without any usage. -/
def definitionIssues (vs : List Variable) : List Issue :=
  (vs.filter fun v => v.isDefinition && !isUsed v.name vs).map definitionIssue

end Naming

namespace Check

/-- The issues of the names of variables. -/
def naming (vs : List Variable) : List Issue :=
  Naming.nameIssues vs ++ Naming.usageIssues vs ++ Naming.definitionIssues vs

end Check

end ScriptAudit
