import ScriptAudit.Check.Issue
import ScriptAudit.Document.Basic

/-!
# Checking the metadata

A document needs a type and an owner, and some types need a mode. Every issue is on the first line.
-/

namespace ScriptAudit.Check

/-- What to write when the metadata are missing. -/
def metadataExample : Text :=
  "Add YAML frontmatter at the beginning of the file:\n" ++
    "---\ntype: Test Case\nowner: YourTeamName\nmode: Standalone\n---\n\n" ++
    "Valid types: ".toList ++ FileType.names ++ "\nValid modes: ".toList ++ Mode.names ++
    " (required for Test Case, Test Suite, Test Collection)".toList

/-- An issue of the metadata. -/
def metadataIssue (code : String) (message suggestion : Text) (severity : Severity := .error) :
    Issue :=
  { code, message, severity, line := some 1, suggestion := some suggestion }

/-- The issues of the type. -/
def typeIssues (type : Yaml.Value) : Except Fault (List Issue) := do
  if type.isVoid then
    return [metadataIssue "META002" "Missing required metadata field: 'type'"
      ("Add 'type' field. Valid values: " ++ FileType.names)]
  else if (FileType.ofValue? type).isNone then
    return [metadataIssue "META003"
      ("Invalid file type: '" ++ (← type.text) ++ "'. Must be one of: " ++ FileType.names)
      ("Use one of: " ++ FileType.names)]
  else return []

/-- Whether an owner is a text of at least two characters, not counting blanks around it. -/
def isOwner : Yaml.Value → Bool
  | .str t => 2 ≤ (Text.trim t).length
  | _ => false

/-- The issues of the owner. -/
def ownerIssues (owner : Yaml.Value) : List Issue :=
  if owner.isVoid then
    [metadataIssue "META004" "Missing required metadata field: 'owner'"
      "Add 'owner' field with the team or component name (e.g., 'Manufacturing', 'Finance')"]
  else if isOwner owner then []
  else
    [metadataIssue "META005" "'owner' field must be a non-empty string (minimum 2 characters)"
      "Provide a valid owner/team name"]

/-- The issues of the mode under a type. -/
def modeIssues (type mode : Yaml.Value) : Except Fault (List Issue) := do
  if (FileType.ofValue? type).any FileType.hasMode then
    if mode.isVoid then
      return [metadataIssue "META006"
        ("Missing required 'mode' field for type '" ++ (← type.text) ++ "'")
        ("Add 'mode' field. Valid values: " ++ Mode.names)]
    else if (Mode.ofValue? mode).isNone then
      return [metadataIssue "META007"
        ("Invalid mode: '" ++ (← mode.text) ++ "'. Must be one of: " ++ Mode.names)
        ("Use one of: " ++ Mode.names)]
    else return []
  else if !mode.isVoid && !type.isVoid then
    return [metadataIssue "META008"
      ("'mode' field is not required for type '" ++ (← type.text) ++ "'")
      ("The 'mode' field is only needed for: " ++
        Text.joinWith ", " (FileType.withMode.map FileType.name)) .info]
  else return []

/-- The issues of the metadata. They cannot be told when a setting cannot be shown. -/
def metadata (m : Option Metadata) : Except Fault (List Issue) :=
  match m with
  | none =>
    .ok [metadataIssue "META001"
      "Missing metadata block (frontmatter). TAR files require YAML frontmatter." metadataExample]
  | some m => do
    return (← typeIssues m.type) ++ ownerIssues m.owner ++ (← modeIssues m.type m.mode)

end ScriptAudit.Check
