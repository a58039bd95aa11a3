import ScriptAudit.Files.Tree

/-!
# Access to files

`Files` is a file tree together with the directory in which one works. Paths are given as text and
start at that directory unless they start with a slash. `Files.read` gives the bytes of a file,
`Files.readText` its text with uniform line ends.
-/

namespace ScriptAudit

/-- A file tree and the directory in which one works. -/
structure Files where
  root : Node := .directory []
  /-- The names from the root to the current directory. -/
  current : List Text := []

namespace Files

/-- The greatest length of a path, in bytes. -/
def longestPath : Nat := 4095

/-- The node at a path that starts at the directory `start`. A path that ends in a slash leads to
a directory only, and an empty one leads nowhere. -/
def nodeFrom (fs : Files) (start : List Text) (path : Text) : Except FileFault Node :=
  if path.isEmpty then .error .missing
  else if (Utf8.encode path).length > longestPath then .error .tooLong
  else fs.root.visit [] ((if path.head? = some '/' then [] else start) ++ Text.splitAt '/' path)

/-- The node at a path. -/
def node (fs : Files) (p : Path) : Except Fault Node :=
  if Path.hasNull p.text then .error .nullInPath
  else (fs.nodeFrom fs.current p.text).mapError (.file · p.text)

/-- The node at a path, if there is one; a path that is no name of anything leads nowhere. -/
def node? (fs : Files) (p : Path) : Except Fault (Option Node) :=
  match fs.node p with
  | .ok n => .ok (some n)
  | .error (.file .missing _) | .error (.file .notDirectory _) | .error .nullInPath => .ok none
  | .error f => .error f

/-- Whether a path leads to something. -/
def has (fs : Files) (p : Path) : Except Fault Bool := return (← fs.node? p).isSome

/-- Whether a path leads to a directory. -/
def hasDirectory (fs : Files) (p : Path) : Except Fault Bool :=
  return (← fs.node? p).any Node.isDirectory

/-- Whether a path leads to a file. -/
def hasFile (fs : Files) (p : Path) : Except Fault Bool :=
  return (← fs.node? p).any (!·.isDirectory)

/-- The bytes of a file. -/
def read (fs : Files) (p : Path) : Except Fault Bytes := do
  match ← fs.node p with
  | .file f => return f.content
  | .directory _ => throw (.file .directory p.text)

/-- The text of a file, with a line feed for every line end. -/
def readText (fs : Files) (p : Path) : Except Fault Text := do
  match Utf8.decode (← fs.read p) with
  | .ok t => return Text.unifyLineEnds t
  | .error defect => throw (.malformedText defect)

/-- The files in a directory, each with the names that lead to it from there; those of deeper
directories only if `recursive`. -/
def filesIn (fs : Files) (recursive : Bool) (p : Path) : Except Fault (List (List Text)) := do
  if recursive then
    match ← fs.node? p with
    | some (.directory entries) => return (Node.filesAmong entries).map Prod.fst
    | _ => return []
  else
    match ← fs.node p with
    | .directory entries => return entries.filterMap fun (name, n) =>
        if n.isDirectory then none else some [name]
    | .file _ => throw (.file .notDirectory p.text)

/-- The files with a directory made, and those that lead to it. -/
def makeDirectory (fs : Files) (p : Path) : Files :=
  { fs with root := fs.root.set (fun n => n.getD (.directory [])) (p.resolve fs.current) }

/-- The files with one file replaced by what `make` makes of it. -/
def change (fs : Files) (p : Path) (make : File → File) : Files :=
  let makeNode : Option Node → Node
    | some (.file f) => .file (make f)
    | some (.directory entries) => .directory entries
    | none => .file (make {})
  { fs with root := fs.root.set makeNode (p.resolve fs.current) }

/-- The files with new content in one file. Whether it may be executed stays as it is. -/
def write (fs : Files) (p : Path) (content : Bytes) : Files :=
  fs.change p fun f => { f with content, program := none }

/-- Where the standard output and the error output of a program are recorded. -/
def recordings (p : Path) : Path × Path :=
  (Path.ofText (p.text ++ ".out"), Path.ofText (p.text ++ ".err"))

/-- The files with a program, and what is recorded for it beside it. -/
def install (fs : Files) (p : Path) (program : Program) (executable : Bool)
    (output errors : Bytes) : Files :=
  let script : File := { content := Utf8.encode "#!/bin/sh\n", executable, program := some program }
  let (outputPath, errorPath) := recordings p
  ((fs.change p fun _ => script).write outputPath output).write errorPath errors

/-- What a recording holds; nothing where there is none. -/
def recording (fs : Files) (p : Path) : Bytes := (fs.read p).toOption.getD []

/-- The path of a program as it is looked for when it is started: a name without a slash belongs
to the programs of the system, of which none is known here. -/
def executableNode (fs : Files) (i : Invocation) : Except FileFault Node :=
  if i.executable.any (· == '/') then fs.nodeFrom i.directory i.executable else .error .missing

/-- What comes of an invocation. -/
def launch (fs : Files) (i : Invocation) : Except Fault Outcome := do
  if (i.executable :: i.arguments).any Path.hasNull then throw .nullInPath
  match fs.executableNode i with
  | .error fault => return .refused fault
  | .ok (.directory _) => return .refused .forbidden
  | .ok (.file f) =>
    if !f.executable then return .refused .forbidden
    match f.program with
    | none => return .refused .notExecutable
    | some program =>
      match i.limit.toFloat? with
      | none => throw .integerRange
      | some limit =>
        let place : Path := ⟨"/", Path.resolve i.directory (Path.ofText i.executable)⟩
        let (outputPath, errorPath) := recordings place
        return program.run (fs.recording outputPath) (fs.recording errorPath) i limit

end Files

end ScriptAudit
