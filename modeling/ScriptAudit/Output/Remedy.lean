import ScriptAudit.Output.Analysis
import ScriptAudit.Check.Redaction

/-!
# Remedies

`Remedy.report` writes what is wrong with a failed test and how to mend it, in Markdown.
`OutputReview` puts everything together that can be said about the output of the interpreter.
-/

namespace ScriptAudit

namespace Remedy

/-- The steps to take against errors of a kind. -/
structure Playbook where
  kind : ErrorKind
  title : Text
  steps : List Text

/-- What to do about failed server calls and assertions. -/
def playbooks : List Playbook :=
  [⟨.serverCallFailed, "Fixing Server Call Failures",
      ["Check that required test data exists".toList,
        "Verify the API endpoint URL is correct".toList,
        "Ensure request payload matches expected format".toList,
        "Check user permissions for the operation".toList]⟩,
    ⟨.assertFailed, "Fixing Assert Failures",
      ["Verify expected values are correct".toList,
        "Check if the API response format changed".toList,
        "Ensure variable names match (case-sensitive)".toList]⟩]

/-- A line with a label, unless the text is missing or empty. -/
def labelled (label : String) (t : Option Text) : List Text :=
  match t with
  | some (c :: cs) => [label.toList ++ c :: cs]
  | _ => []

/-- The lines about an error. -/
def errorLines (f : Finding) : List Text :=
  [("### " : Text) ++ Text.upper f.kind.name, ("**Problem:** " : Text) ++ f.message] ++
    labelled "**Location:** " f.location ++
    labelled "**HTTP Status:** " ((f.statusCode.filter (· ≠ 0)).map Text.ofInt) ++
    labelled "**Suggested Fix:** " f.suggestion ++ [[]]

/-- The lines about warnings. -/
def warningLines (ws : List Text) : List Text :=
  if ws.isEmpty then []
  else ["## Warnings".toList, []] ++ ws.map (fun w => ("- " : Text) ++ w) ++ [[]]

/-- The lines of a playbook. -/
def playbookLines (p : Playbook) : List Text :=
  [("## " : Text) ++ p.title, []] ++
    p.steps.mapIdx (fun i s => Text.ofNat (i + 1) ++ ". ".toList ++ s) ++ [[]]

/-- What is wrong with a test and how to mend it. -/
def report (r : Result) : Text :=
  if r.success then "No fixes needed - test passed successfully."
  else
    Text.joinWith ['\n']
      (["# Test Fix Report".toList, [], ("## Test: " : Text) ++ r.report.testName,
          ("Status: " : Text) ++ r.report.status.name, [], "## Issues Found".toList, []] ++
        r.errors.flatMap errorLines ++ warningLines r.warnings ++
        (playbooks.filter fun p => r.errors.any (·.kind == p.kind)).flatMap playbookLines)

end Remedy

/-- Everything that can be said about an output. -/
structure OutputReview where
  result : Result
  analysis : Analysis

namespace OutputReview

/-- Reviews the output of the interpreter. -/
def ofText (raw : Text) : Except Fault OutputReview := do
  let r ← Result.ofText raw
  return ⟨r, ← Analysis.ofResult r⟩

/-- A review as an object with all secrets masked. -/
def json (o : OutputReview) : Json :=
  Redaction.maskAll (Json.object
    [("success", .bool o.result.success),
      ("report", o.result.report.json),
      ("errors", .arr (o.result.errors.map Finding.json)),
      ("warnings", Json.texts o.result.warnings),
      ("analysis", o.analysis.json),
      ("fix_report", .str (Remedy.report o.result))])

end OutputReview

end ScriptAudit
