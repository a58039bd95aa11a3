import ScriptAudit.Document.Metadata
import ScriptAudit.Document.Section

/-!
# Documents

`Document.read` takes a text apart: its metadata, and of its body the sections, the commands, the
variables and the patterns. Lines are counted from one over the whole text. A mark of the byte
order in front of the text does not count.
-/

namespace ScriptAudit

/-- A document and its parts. -/
structure Document where
  metadata : Option Metadata
  fileType : Option FileType
  sections : List Section
  usages : List Variable
  patterns : List Pattern
  commands : List Command
  text : Text

namespace Document

/-- The text without a mark of the byte order in front. -/
def withoutMark : Text → Text
  | '\ufeff' :: t => t
  | t => t

/-- The metadata of a text, and the number of lines before its body. -/
def head [Yaml.Loader] (t : Text) : Except Fault (Option Metadata × Nat) :=
  match Frontmatter.split? t with
  | none => .ok (none, 0)
  | some f => (Metadata.read? f.block).map fun m => (m, f.bodyStart t)

/-- The parts of the body after the first `start` lines. -/
def ofBody (metadata : Option Metadata) (start : Nat) (t : Text) : Document :=
  let lines := Text.lines t
  let body := Line.ofLines start lines
  let blocks := scriptBlocks body
  let commands := blocks.flatMap Script.commands
  { metadata
    fileType := metadata.bind Metadata.fileType?
    sections :=
      (Section.bounds start lines.length (headings body)).map (Section.ofBounds lines commands)
    usages := Variable.ofBlocks blocks
    patterns := Pattern.ofLines lines
    commands
    text := t }

/-- Takes a text apart. -/
def read [Yaml.Loader] (text : Text) : Except Fault Document := do
  let t := withoutMark text
  let (metadata, start) ← head t
  return ofBody metadata start t

end Document

end ScriptAudit
