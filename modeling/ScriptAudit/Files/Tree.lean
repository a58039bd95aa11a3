import ScriptAudit.Files.Path
import ScriptAudit.Run.Program

/-!
# File trees

A `Node` is a file or a directory with named entries. `Node.visit` goes along the parts of a path,
upwards as well as downwards, and says what stands in its way. `Node.set` puts something at a place
and makes the directories that lead there. A tree knows which files may be executed; that others may
not be read, or not be looked for, is left out.
-/

namespace ScriptAudit

/-- A file. -/
structure File where
  content : Bytes := []
  /-- Whether it may be executed. -/
  executable : Bool := false
  /-- What it does when it is executed, if that is known. -/
  program : Option Program := none

/-- A file or a directory. -/
inductive Node
  /-- A file. -/
  | file (file : File)
  /-- A directory and its entries by name. -/
  | directory (entries : List (Text × Node))

namespace Node

/-- The greatest length of a name, in bytes. -/
def longestName : Nat := 255

/-- The entry of a directory. -/
def entry? (name : Text) : Node → Option Node
  | file _ => none
  | directory entries => entries.lookup name

/-- Whether a node is a directory. -/
def isDirectory : Node → Bool
  | file _ => false
  | directory _ => true

/-- Goes along the parts of a path; `ancestors` are the directories above `node`, the nearest one
first. There is nothing above the root, so that the way upwards ends there. -/
def visit (ancestors : List Node) (node : Node) : List Text → Except FileFault Node
  | [] => .ok node
  | part :: parts =>
    match node with
    | file _ => .error .notDirectory
    | directory _ =>
      if part.isEmpty || part == Path.here then visit ancestors node parts
      else if part == Path.above then
        match ancestors with
        | [] => visit [] node parts
        | up :: ups => visit ups up parts
      else if (Utf8.encode part).length > longestName then .error .tooLong
      else
        match node.entry? part with
        | none => .error .missing
        | some next => visit (node :: ancestors) next parts

/-- Gives an entry its node: in its place when it is there already, else at the end. -/
def setEntry (name : Text) (node : Node) : List (Text × Node) → List (Text × Node)
  | [] => [(name, node)]
  | (n, old) :: entries =>
    if n == name then (n, node) :: entries else (n, old) :: setEntry name node entries

/-- Puts at a place what `make` makes of the node that is there. A directory stands in the way of
no place below it; a file does, and then nothing changes. -/
def set (make : Option Node → Node) : (place : List Text) → Node → Node
  | [], node => make (some node)
  | _, file f => file f
  | [name], directory entries =>
    directory (setEntry name (make (entries.lookup name)) entries)
  | name :: place, directory entries =>
    directory (setEntry name (set make place ((entries.lookup name).getD (directory []))) entries)

mutual

/-- The files below a node, each with the names that lead to it. -/
def filesBelow : Node → List (List Text × File)
  | file f => [([], f)]
  | directory entries => filesAmong entries

/-- The files below some entries, each with the names that lead to it. -/
def filesAmong : List (Text × Node) → List (List Text × File)
  | [] => []
  | (name, node) :: entries =>
    node.filesBelow.map (fun (names, f) => (name :: names, f)) ++ filesAmong entries

end

end Node

end ScriptAudit
