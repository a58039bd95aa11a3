import ScriptAudit.Check.Issue
import ScriptAudit.Document.Basic

/-!
# Checking the phases of a test

A test case arranges, acts and asserts, in this order. Only test cases are checked: the act and
assert phases have to be there, they should contain commands of their kind, and no phase should
stand after a later one.
-/

namespace ScriptAudit.Check

/-- The phases in their order. -/
def phaseOrder : List Phase := [.arrange, .act, .assert]

/-- The place of a phase in the order. -/
def rank? : Phase → Option Nat
  | .arrange => some 0
  | .act => some 1
  | .assert => some 2
  | .other => none

/-- Whether some section belongs to a phase. -/
def hasPhase (p : Phase) (sections : List Section) : Bool := sections.any (·.phase == p)

/-- The text of a section without the first line of its heading. -/
def sectionBody (s : Section) : Text :=
  if s.heading.isEmpty then s.content else (Text.cutLine s.content).2

/-- Whether a text contains one of some keywords as a word. -/
def mentions (keywords : List Keyword) (t : Text) : Bool :=
  keywords.any fun k => (Text.wholeWord k.name).found t

/-! ## Missing phases -/

/-- The issues of phases that no section belongs to. -/
def missingPhases (sections : List Section) : List Issue :=
  (if hasPhase .act sections then [] else
    [{ code := "AAA001"
       message := "Test Case is missing an Act section."
       severity := .error
       suggestion := some ("Add a markdown section with heading containing \"Act\", \"When\", or " ++
         "\"Execute\".\nExample:\n## Act\n1. Call the API endpoint.".toList) }]) ++
  (if hasPhase .assert sections then [] else
    [{ code := "AAA002"
       message := "Test Case is missing an Assert section."
       severity := .error
       suggestion := some ("Add a markdown section with heading containing \"Assert\", \"Then\", " ++
         ("\"Verify\", or \"Expect\".\nExample:\n## Assert\n" ++
           "1. Verify the response status is 200.").toList) }]) ++
  (if hasPhase .arrange sections then [] else
    [{ code := "AAA003"
       message := "Test Case does not have an Arrange section. Consider adding one for clarity."
       severity := .info
       suggestion := some ("Add a markdown section with heading containing \"Arrange\", \"Given\", " ++
         "or \"Setup\".\nExample:\n## Arrange\n1. Set up test data.".toList) }])

/-! ## Order -/

/-- The issues of sections after a later phase; `highest` bounds the ranks so far from above. -/
def orderIssues : (highest : Nat) → List Section → List Issue
  | _, [] => []
  | highest, s :: ss =>
    match rank? s.phase with
    | none => orderIssues highest ss
    | some r =>
      (if r + 1 < highest then
        [{ code := "AAA004"
           message := "Section order issue: \"" ++ s.heading ++ "\" (" ++ s.phase.name ++
             ") appears after a later section in the AAA pattern."
           severity := .warning
           line := some s.first
           suggestion := some "Reorder sections to follow: Arrange → Act → Assert" }]
      else []) ++ orderIssues (max highest (r + 1)) ss

/-! ## Contents -/

/-- The issues of act sections without a call. -/
def idleActs (sections : List Section) : List Issue :=
  (sections.filter fun s => s.phase == .act &&
      !mentions (.call :: Keyword.serverCalls) (sectionBody s)).map fun s =>
    { code := "AAA005"
      message := ("Act section does not appear to contain any server call commands " ++
        "(Get, Post, Create, Call, etc.).".toList)
      severity := .warning
      line := some s.first
      suggestion := some "Add server commands in the code block within the Act section." }

/-- The issues of assert sections without an assertion. -/
def idleAsserts (sections : List Section) : List Issue :=
  (sections.filter fun s => s.phase == .assert &&
      !mentions [.assert, .assertJson] (sectionBody s)).map fun s =>
    { code := "AAA006"
      message := "Assert section does not contain any Assert commands."
      severity := .warning
      line := some s.first
      suggestion := some ("Add Assert commands to verify expected outcomes.\n" ++
        "Example: Assert \x7b$response.status\x7d == 200".toList) }

/-- The issues of the phases of a document. -/
def phases (d : Document) : List Issue :=
  if d.fileType = some .testCase then
    missingPhases d.sections ++ orderIssues 0 d.sections ++ idleActs d.sections ++
      idleAsserts d.sections
  else []

end ScriptAudit.Check
