import ScriptAudit.Output.Trace
import ScriptAudit.Number.Basic
import ScriptAudit.Text.Scan

/-!
# Test reports

The interpreter ends its output with a report. Each figure of the report is looked for on its own,
so that a missing one only keeps its default. `Report.read` collects them.
-/

namespace ScriptAudit

/-- How a test ended. -/
inductive Status
  | passed
  | failed
  | error
  deriving DecidableEq

namespace Status

/-- The name of a status. -/
def name : Status → Text
  | passed => "Passed"
  | failed => "Failed"
  | error => "Error"

/-- The status of a name. -/
def ofName? (t : Text) : Option Status := [passed, failed, error].find? (·.name == t)

end Status

/-- The figures of a test. -/
structure Report where
  testName : Text := "Unknown"
  status : Status := .error
  seconds : Number := .float (Binary64.withSign false 0)
  filePath : Text := []
  testType : Option Text := none
  serverCalls : Int := 0
  failedServerCalls : Int := 0
  asserts : Int := 0
  failedAsserts : Int := 0
  exceptions : Int := 0

namespace Report

/-- The types of tests in the heading of a report. -/
def testTypes : List Text :=
  ["TestData".toList, "TestCase".toList, "TestSuite".toList, "TestUtil".toList,
    "TestCollection".toList]

/-- Whether a line begins after this character. -/
def lineStarts (before : Option Char) : Bool := before.all (· == '\n')

/-! ## What is looked for -/

/-- Finds a type of tests at the head of a line and the word after it. -/
def heading : Recogniser (Text × Text) := fun before t => do
  if !lineStarts before then none
  let t := Text.trimLeft t
  testTypes.findSome? fun type => do
    let rest ← Text.after? type t
    let (_, rest) ← Trace.gap? rest
    let name := rest.takeWhile (!isBlank ·)
    if name.isEmpty then none else return ((type, name), 1)

/-- Whether the line ends after blanks, or the text does. -/
def endsLine (t : Text) : Bool :=
  let blanks := t.takeWhile isBlank
  blanks.length = t.length || blanks.elem '\n'

/-- Finds a line that holds nothing but a status. -/
def statusLine : Recogniser Status := fun before t =>
  if lineStarts before then
    let t := Text.trimLeft t
    [Status.passed, Status.failed].findSome? fun s =>
      match Text.after? s.name t with
      | some rest => if endsLine rest then some (s, 1) else none
      | none => none
  else none

/-- Finds a label, blanks and characters of a class after them, and gives the characters. -/
def labelled (label : Text) (p : Char → Bool) : Recogniser Text := fun _ t => do
  let rest ← Text.after? label t
  let (_, rest) ← Trace.gap? rest
  let value := rest.takeWhile p
  if value.isEmpty then none else return (value, 1)

/-- The text before the last occurrence of `.mkd`, which is not at the beginning. -/
def beforeExtension? : Text → Option Text
  | [] => none
  | c :: cs =>
    match beforeExtension? cs with
    | some t => some (c :: t)
    | none => if (Text.after? ".mkd" cs).isSome then some [c] else none

/-- The last part of a path between slashes or backslashes, with what follows it up to the
extension; `none` for a line without such a part. -/
def lastName? (line rest : Text) : Option Text :=
  match line with
  | [] => none
  | c :: cs =>
    match lastName? cs rest with
    | some name => some name
    | none =>
      if c = '/' || c = '\\' then
        beforeExtension? ((cs ++ rest).takeWhile fun x => x ≠ '/' && x ≠ '\\')
      else none

/-- Finds the label of the file and gives the name of the file without its directory and
extension. -/
def fileName : Recogniser Text := fun _ t => do
  let t ← Text.after? "file:" t
  let (_, t) ← Trace.gap? t
  let line := t.takeWhile (· ≠ '\n')
  let name ← lastName? line (t.drop line.length)
  return (name, 1)

/-- The path in a line up to its last extension, after as many of the blanks as possible. -/
def pathAfter? : (blanks : Text) → Text → Option Text
  | [], _ => none
  | _ :: bs, rest =>
    (pathAfter? bs rest) <|>
      ((beforeExtension? ((bs ++ rest).takeWhile (· ≠ '\n'))).map (· ++ ".mkd".toList))

/-- Finds the label of the file and gives its path. -/
def path : Recogniser Text := fun _ t => do
  let t ← Text.after? "file:" t
  let (blanks, t) ← Trace.gap? t
  let p ← pathAfter? blanks t
  return (p, 1)

/-- The number after a label, or zero. -/
def counter (label : Recogniser Text) (raw : Text) : Except Fault Int :=
  match label.first? raw with
  | some ds => (Trace.count ds).map Int.ofNat
  | none => .ok 0

/-- Finds the number of exceptions, whose label may lack its colon. -/
def exceptionCount : Recogniser Text := fun before t =>
  (labelled "Exceptions:" isDecimal before t) <|> (labelled "Exceptions" isDecimal before t)

/-! ## The report of a text -/

/-- The status of a text: that of the first line that holds nothing else, or else the first of
`Passed` and `Failed` that occurs at all. -/
def statusOf (raw : Text) : Status :=
  match statusLine.first? raw with
  | some s => s
  | none =>
    if Text.contains Status.passed.name raw then .passed
    else if Text.contains Status.failed.name raw then .failed
    else .error

/-- The duration in a text; what is no number counts as zero. -/
def secondsOf (raw : Text) : Number :=
  let zero := Binary64.withSign false 0
  match (labelled "time:" fun c => isDecimal c || c == '.').first? raw with
  | some t => .float ((Numeral.float? t).getD zero)
  | none => .float zero

/-- The figures of a text. -/
def read (raw : Text) : Except Fault Report := do
  let head := heading.first? raw
  let name :=
    match head with
    | some (_, name) => name
    | none => (fileName.first? raw).getD "Unknown"
  return {
    testName := name
    status := statusOf raw
    seconds := secondsOf raw
    filePath := Text.trim ((path.first? raw).getD [])
    testType := head.map Prod.fst
    serverCalls := ← counter (labelled "Server calls:" isDecimal) raw
    failedServerCalls := ← counter (labelled "Failed server calls:" isDecimal) raw
    asserts := ← counter (labelled "Asserts:" isDecimal) raw
    failedAsserts := ← counter (labelled "Failed asserts:" isDecimal) raw
    exceptions := ← counter exceptionCount raw }

end Report

end ScriptAudit
