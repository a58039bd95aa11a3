import ScriptAudit.Document.Frontmatter
import ScriptAudit.Yaml.Loader

/-!
# Metadata

The settings at the head of a document tell its type, its owner and its mode. They are kept as
they were written, so that a check can report what is wrong with them; `FileType.ofValue?` and
`Mode.ofValue?` know the admissible ones.
-/

namespace ScriptAudit

/-! ## Types and modes -/

/-- The types of documents. -/
inductive FileType
  /-- Prepares data for tests. -/
  | testData
  /-- Prepares data and hands them to its caller. -/
  | testUtil
  /-- Tests one thing. -/
  | testCase
  /-- Calls test cases. -/
  | testSuite
  /-- Calls test suites. -/
  | testCollection
  deriving DecidableEq

namespace FileType

/-- All types in the order in which they are listed. -/
def all : List FileType := [testData, testUtil, testCase, testSuite, testCollection]

/-- The name of a type. -/
def name : FileType → Text
  | testData => "Test Data"
  | testUtil => "Test Util"
  | testCase => "Test Case"
  | testSuite => "Test Suite"
  | testCollection => "Test Collection"

/-- The type of a name. -/
def ofName? (t : Text) : Option FileType := all.find? (·.name == t)

/-- The type that a setting names. -/
def ofValue? : Yaml.Value → Option FileType
  | .str t => ofName? t
  | _ => none

/-- Whether a document of this type has a mode. -/
def hasMode : FileType → Bool
  | testCase => true
  | testSuite => true
  | testCollection => true
  | _ => false

/-- The types that have a mode. -/
def withMode : List FileType := all.filter hasMode

/-- The names of all types. -/
def names : Text := Text.joinWith ", " (all.map name)

end FileType

/-- How a document is executed. -/
inductive Mode
  | standalone
  | dependent
  deriving DecidableEq

namespace Mode

/-- All modes in the order in which they are listed. -/
def all : List Mode := [standalone, dependent]

/-- The name of a mode. -/
def name : Mode → Text
  | standalone => "Standalone"
  | dependent => "Dependent"

/-- The mode that a setting names. -/
def ofValue? : Yaml.Value → Option Mode
  | .str t => all.find? (·.name == t)
  | _ => none

/-- The names of all modes. -/
def names : Text := Text.joinWith ", " (all.map name)

end Mode

/-! ## Settings -/

/-- The settings of a document as they are written; what is absent is null. -/
structure Metadata where
  type : Yaml.Value
  owner : Yaml.Value
  mode : Yaml.Value
  /-- The other settings by the text of their key. -/
  extra : List (Text × Yaml.Value)

namespace Metadata

/-- Whether a key is one of the known settings. -/
def isKnown : Yaml.Value → Bool
  | .str t => ["type".toList, "owner".toList, "mode".toList].elem t
  | _ => false

/-- Gives a setting its value: in its place when it is there already, else at the end. -/
def put (key : Text) (value : Yaml.Value) : List (Text × Yaml.Value) → List (Text × Yaml.Value)
  | [] => [(key, value)]
  | (k, v) :: es => if k == key then (k, value) :: es else (k, v) :: put key value es

/-- The settings of a mapping. -/
def ofEntries (entries : List (Yaml.Value × Yaml.Value)) : Except Fault Metadata := do
  let setting (key : Text) := (Yaml.Value.get? key entries).getD .null
  let others ← (entries.filter fun e => !isKnown e.1).mapM fun (k, v) => do return (← k.text, v)
  return ⟨setting "type", setting "owner", setting "mode",
    others.foldl (fun es (k, v) => put k v es) []⟩

/-- The settings of a block. A block that the loader refuses, or that is no mapping, has none; a
fault of the loader is one of the block. -/
def read? [Yaml.Loader] (block : Text) : Except Fault (Option Metadata) :=
  match Yaml.Loader.load block with
  | .ok (.map entries) => (ofEntries entries).map some
  | .ok _ => .ok none
  | .error .unsuitable => .ok none
  | .error (.fault f) => .error f

/-- The type of a document, if it is one of the known types. -/
def fileType? (m : Metadata) : Option FileType := FileType.ofValue? m.type

end Metadata

end ScriptAudit
