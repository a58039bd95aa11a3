import ScriptAudit.Check.Metadata
import ScriptAudit.Check.Phases
import ScriptAudit.Check.Naming
import ScriptAudit.Check.Patterns
import ScriptAudit.Check.Redaction

/-!
# Reviews

A `Review` is the outcome of all checks of a document, `PhaseReview` and `CommandReview` are those
of single checks. Their objects have all secrets masked.
-/

namespace ScriptAudit

/-! ## All checks -/

/-- The issues of all checks, in the order in which the checks are made. -/
def Check.all (d : Document) : Except Fault (List Issue) := do
  return (← Check.metadata d.metadata) ++ Check.phases d ++ Check.naming d.usages ++
    Check.patterns d ++ Check.commands d

/-- The outcome of all checks of a document. -/
structure Review where
  document : Document
  issues : List Issue

namespace Review

/-- Reviews a text; unless it is `strict`, only errors are kept. -/
def ofText [Yaml.Loader] (strict : Bool) (t : Text) : Except Fault Review := do
  let d ← Document.read t
  let issues ← Check.all d
  return ⟨d, if strict then issues else issues.filter Issue.isError⟩

/-- The number of issues of a severity. -/
def count (s : Severity) (issues : List Issue) : Nat := issues.countP (·.severity == s)

/-- Whether there is no error. -/
def isValid (r : Review) : Bool := !r.issues.any Issue.isError

/-- The type of the document as it is reported. -/
def typeName (r : Review) : Text := (r.document.fileType.map FileType.name).getD "Unknown"

/-- The fields of a review, with all secrets masked. -/
def fields (filename : Option Text) (r : Review) : List (Text × Json) :=
  let plain : List (Text × Json) :=
    [("valid", .bool r.isValid),
      ("file_type", .str r.typeName),
      ("issues", .arr (r.issues.map Issue.json)),
      ("summary", Json.object
        [("errors", Json.nat (count .error r.issues)),
          ("warnings", Json.nat (count .warning r.issues)),
          ("info", Json.nat (count .info r.issues))]),
      ("metadata", Json.object
        [("commands_found", Json.nat r.document.commands.length),
          ("variables_found", Json.nat r.document.usages.length),
          ("patterns_found", Json.nat r.document.patterns.length),
          ("sections_found", Json.nat r.document.sections.length)])]
  Redaction.maskFields (plain ++
    Json.field? "filename" ((filename.filter (!·.isEmpty)).map .str))

/-- A review as an object, with all secrets masked. -/
def json (filename : Option Text) (r : Review) : Json := .obj (r.fields filename)

end Review

/-! ## The phases of a test -/

/-- A server call as an object. -/
def Operation.json (o : Operation) : Json :=
  Json.object [("method", .str o.method), ("url", .str o.url), ("line", Json.nat o.line)]

/-- A section as fields. -/
def Section.fields (s : Section) : List (Text × Json) :=
  [("type", .str s.phase.name), ("heading", .str s.heading), ("line_start", Json.nat s.first),
    ("line_end", Json.nat s.last), ("operations", .arr (s.operations.map Operation.json))]

/-- The outcome of the check of the phases. -/
structure PhaseReview where
  document : Document
  issues : List Issue

namespace PhaseReview

/-- Reviews the phases of a text. -/
def ofText [Yaml.Loader] (t : Text) : Except Fault PhaseReview := do
  let d ← Document.read t
  return ⟨d, Check.phases d⟩

/-- Whether the document is a test case, so that its phases are checked. -/
def applies (r : PhaseReview) : Bool := r.document.fileType = some .testCase

/-- Whether there is no error. -/
def isValid (r : PhaseReview) : Bool := !r.issues.any Issue.isError

/-- Whether some section belongs to a phase. -/
def has (r : PhaseReview) (p : Phase) : Bool := Check.hasPhase p r.document.sections

/-- A review as an object. -/
def json (r : PhaseReview) : Json :=
  Redaction.maskAll (Json.object
    [("applies", .bool r.applies),
      ("has_arrange", .bool (r.has .arrange)),
      ("has_act", .bool (r.has .act)),
      ("has_assert", .bool (r.has .assert)),
      ("is_valid", .bool r.isValid),
      ("sections", .arr (r.document.sections.map fun s => .obj s.fields)),
      ("issues", .arr (r.issues.map Issue.json))])

end PhaseReview

/-! ## Commands -/

/-- The outcome of the check of the commands. -/
structure CommandReview where
  commands : List Command
  issues : List Issue

namespace CommandReview

/-- Reviews the commands of a text. -/
def ofText [Yaml.Loader] (t : Text) : Except Fault CommandReview := do
  let d ← Document.read t
  return ⟨d.commands, Check.commands d⟩

/-- Whether there is no error. -/
def isValid (r : CommandReview) : Bool := !r.issues.any Issue.isError

/-- Whether some issue is on the line of a command. -/
def hasIssue (r : CommandReview) (c : Command) : Bool :=
  r.issues.any fun i => i.line == some c.line

/-- A review as an object, without masking. -/
def plainJson (r : CommandReview) : Json :=
  Json.object
    [("command_count", Json.nat r.commands.length),
      ("commands", .arr (r.commands.map fun c =>
        .obj ([("type".toList, .str c.keyword.name), ("line".toList, Json.nat c.line),
            ("has_issues".toList, .bool (r.hasIssue c))] ++
          Json.field? "target" (c.target.map .str)))),
      ("issues", .arr (r.issues.map Issue.json))]

/-- A review as an object. -/
def json (r : CommandReview) : Json := Redaction.maskAll r.plainJson

end CommandReview

end ScriptAudit
