import ScriptAudit.Text.Basic

/-!
# The prompt for failing tests

`Prompt.failingTest` guides through the tools that help to mend a failing test.
-/

namespace ScriptAudit.Prompt

/-- A text as it stands in code. -/
def code (t : Text) : Text := ['\x60'] ++ t ++ ['\x60']

/-- A text as it stands in code. -/
def codeOf (t : String) : Text := code t.toList

/-- A row of a table. -/
def row (cells : List Text) : Text := "| ".toList ++ Text.joinWith " | " cells ++ " |".toList

/-- The table of the kinds of errors. -/
def causes : List Text :=
  let failedCall (status : String) := codeOf "server_call_failed" ++ ' ' :: status.toList
  [row ["Error type", "Typical cause", "What to check"],
    "|------------|---------------|---------------|",
    row [failedCall "404", "Missing test data",
      "Run the Test Data / Test Util that creates it first"],
    row [failedCall "401", "Credentials", "Username, password and user permissions"],
    row [failedCall "422", "Business rule", "Field values in the JSON body"],
    row [codeOf "assert_failed", "Wrong expectation",
      "Expected values and variable names (case-sensitive)"],
    row [codeOf "timeout", "Slow server", "Increase the timeout or split the test"]]

/-- How to validate the file. -/
def validation (file : Text) : List Text :=
  ["## Step 1: Validate the File",
    "Use ".toList ++ codeOf "validate_file" ++ " on ".toList ++ code file ++
      ". Fix every error first:".toList,
    "- META errors: frontmatter ".toList ++ codeOf "type" ++ ", ".toList ++ codeOf "owner" ++
      " and ".toList ++ codeOf "mode",
    "- AAA errors: Test Cases need Act and Assert sections",
    "- PAT errors: broken ".toList ++ codeOf "\x7b$...\x7d" ++ ", ".toList ++
      codeOf "\x7b#...\x7d" ++ " or ".toList ++ codeOf "\x7b%...\x7d" ++ " patterns".toList,
    "- CMD errors: missing targets, ".toList ++ codeOf "Eval" ++ " without ".toList ++
      codeOf "Into" ++ ", Asserts in Test Utils".toList]

/-- How to execute the test. -/
def execution (file : Text) : List Text :=
  ["## Step 2: Run the Test",
    "Use ".toList ++ codeOf "run_test" ++ " with ".toList ++ code file ++ ". Check ".toList ++
      codeOf "get_runner_status" ++ " first if the run fails to start.".toList]

/-- How to mend the test. -/
def correction : List Text :=
  ["## Step 4: Fix and Re-run",
    "Use ".toList ++ codeOf "analyze_results" ++
      " on the raw output for a fix report, edit the file,".toList,
    "then repeat from Step 1 until the test passes."]

/-- The guide through the tools for a test file. -/
def failingTest (file : Text) : Text :=
  let sections : List (List Text) :=
    [["# Fix Failing Test: ".toList ++ file], validation file, execution file,
      "## Step 3: Read the Analysis".toList :: causes, correction]
  Text.joinWith "\n\n" (sections.map (Text.joinWith "\n")) ++ ['\n']

end ScriptAudit.Prompt
