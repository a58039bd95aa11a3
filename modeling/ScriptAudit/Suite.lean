import ScriptAudit.Files.Access
import ScriptAudit.Check.Review

/-!
# Suites

The documents of a directory are found by the ending of their names, `Suite.testFiles`, and
reviewed one after the other, `SuiteReview.ofDirectory`. A file that cannot be read counts as one
that has an error.
-/

namespace ScriptAudit

/-! ## A single file -/

/-- The review of a file. -/
inductive FileReview
  /-- The file holds a document. -/
  | reviewed (review : Review)
  /-- The file could not be read. -/
  | unreadable (fault : Fault)

namespace FileReview

/-- Reviews a file. -/
def ofFile [Yaml.Loader] (files : Files) (strict : Bool) (path : Text) :
    Except Fault FileReview := do
  match files.readText (Path.ofText path) with
  | .ok t => return reviewed (← Review.ofText strict t)
  | .error .nullInPath => throw .nullInPath
  | .error f => return unreadable f

/-- What is said about a file that could not be read. -/
def complaint (f : Fault) : Text := "Failed to read file: " ++ f.message

/-- A review as an object. -/
def json (path : Text) : FileReview → Json
  | reviewed r => .obj (r.fields none ++ [("file".toList, .str path)])
  | unreadable f => Json.object [("error", .str (complaint f)), ("file", .str path)]

end FileReview

namespace Suite

/-! ## The files of a suite -/

/-- The endings of the names of documents. -/
def endings : List Text := [".mkd", ".md"]

/-- Whether a file of this name holds a document; capital letters in the ending count as small
ones. -/
def isTest (name : Text) : Bool := endings.contains (Text.lower (Path.suffixOf name))

/-- The documents in a directory in the order of their paths. -/
def testFiles (files : Files) (recursive : Bool) (directory : Text) : Except Fault (List Text) := do
  let p := Path.ofText directory
  let tests := (← files.filesIn recursive p).filter fun names => isTest (names.getLast?.getD [])
  return (tests.map fun names => (p.join names).text).mergeSort fun a b => !Text.precedes b a

/-! ## The review of a suite -/

/-- The outcome for one file. -/
structure Entry where
  file : Text
  valid : Bool
  errors : Nat
  warnings : Nat
  /-- Why the file could not be read. -/
  complaint : Option Text := none

namespace Entry

/-- The outcome of a review. -/
def ofReview (file : Text) : FileReview → Entry
  | .reviewed r =>
    ⟨file, r.isValid, Review.count .error r.issues, Review.count .warning r.issues, none⟩
  | .unreadable f => ⟨file, false, 1, 0, some (FileReview.complaint f)⟩

/-- An outcome as an object. -/
def json (e : Entry) : Json :=
  .obj ([("file".toList, .str e.file), ("valid".toList, .bool e.valid),
      ("errors".toList, Json.nat e.errors), ("warnings".toList, Json.nat e.warnings)] ++
    Json.field? "error" (e.complaint.map .str))

end Entry

/-- The outcomes for some files, one after the other. With `stop`, the first file that is not
valid is the last one that is looked at. -/
def sweep [Yaml.Loader] (files : Files) (stop : Bool) : List Text → Except Fault (List Entry)
  | [] => return []
  | file :: rest => do
    let e := Entry.ofReview file (← FileReview.ofFile files true file)
    if stop && !e.valid then return [e]
    else return e :: (← sweep files stop rest)

end Suite

/-- The review of a suite. -/
structure SuiteReview where
  directory : Text
  /-- The number of documents in the suite. -/
  total : Nat
  entries : List Suite.Entry

namespace SuiteReview

/-- What is said when there is no directory at a path. -/
def noDirectory (directory : Text) : Text := "Directory not found: " ++ directory

/-- Reviews the documents of a directory; there may be no such directory. -/
def ofDirectory [Yaml.Loader] (files : Files) (recursive stop : Bool) (directory : Text) :
    Except Fault (Option SuiteReview) := do
  if ← files.hasDirectory (Path.ofText directory) then
    let tests ← Suite.testFiles files recursive directory
    return some ⟨directory, tests.length, ← Suite.sweep files stop tests⟩
  else return none

/-- The number of valid files. -/
def valid (r : SuiteReview) : Nat := r.entries.countP (·.valid)

/-- The number of files that are not valid. -/
def invalid (r : SuiteReview) : Nat := r.entries.countP (!·.valid)

/-- A review as an object. -/
def json (r : SuiteReview) : Json :=
  Json.object
    [("directory", .str r.directory), ("total_files", Json.nat r.total),
      ("validated_files", Json.nat r.entries.length), ("valid_files", Json.nat r.valid),
      ("invalid_files", Json.nat r.invalid), ("results", .arr (r.entries.map Suite.Entry.json))]

/-- The outcome of a request for a review of a directory as an object. -/
def outcomeJson (directory : Text) : Option SuiteReview → Json
  | some r => r.json
  | none => Json.object [("error", .str (noDirectory directory))]

end SuiteReview

end ScriptAudit
