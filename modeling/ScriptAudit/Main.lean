import ScriptAudit.CommandLine.Answer
import ScriptAudit.Yaml.Standard

/-!
# The program

Reads the files that the command line names, answers, and prints the answer. No interpreter is
started from here: the files that are read hold no `Program`, so that a test cannot be executed.
-/

namespace ScriptAudit.Main

/-- The name of the program. -/
def name : Text := "script-audit"

/-- What is at a path on disk. -/
partial def nodeAt? (path : String) : IO (Option Node) := do
  let place := (← IO.currentDir) / path
  if ← place.isDir then
    let entries ← (← place.readDir).toList.filterMapM fun e => do
      return (← nodeAt? e.path.toString).map fun n => (e.fileName.toList, n)
    return some (.directory entries)
  else if ← place.pathExists then
    let content ← IO.FS.readBinFile place
    return some (.file { content := content.toList, executable := true })
  else return none

/-- The files with what is on disk at some paths. -/
def load (files : Files) (paths : List Text) : IO Files :=
  paths.foldlM (fun files path => do
    match ← nodeAt? (String.ofList path) with
    | none => return files
    | some n =>
      let place := (Path.ofText path).resolve files.current
      return { files with root := files.root.set (fun _ => n) place }) files

/-- The variables of the environment that matter. -/
def environment : IO Bindings := do
  let names := Configuration.fileVariable :: Configuration.Key.all.map Configuration.Key.name
  names.filterMapM fun n => do
    return (← IO.getEnv (String.ofList n)).map fun v => (n, v.toList)

/-- The session in which a command line is answered. -/
def session (arguments : List Text) : IO Session := do
  let current := (Path.ofText (← IO.currentDir).toString.toList).parts
  let environment ← environment
  let files : Files := { current }
  let files := files.makeDirectory (Path.ofText ".")
  let files ← load files ((Configuration.candidates environment ".").map Path.text)
  let configured := (Configuration.load files environment ".").toOption.getD []
  let named := match CommandLine.Task.ofArguments name arguments with
    | .ok (some (task, _)) => task.paths
    | _ => []
  let files ← load files ((configured.given? Configuration.Key.path.name).toList ++ named)
  return { files, environment, project := "." }

end ScriptAudit.Main

open ScriptAudit in
/-- Answers the command line. -/
def main (arguments : List String) : IO UInt32 := do
  let arguments := arguments.map String.toList
  let input ← if arguments.contains ['-'] then (← IO.getStdin).readBinToEnd else pure .empty
  let session ← Main.session arguments
  match ((CommandLine.answer Main.name arguments input.toList).run.run session).1 with
  | .ok a =>
    IO.print (String.ofList a.output)
    IO.eprint (String.ofList a.errors)
    return a.exit.toUInt32
  | .error f =>
    IO.eprintln (String.ofList ("Error: ".toList ++ f.message))
    return 1
