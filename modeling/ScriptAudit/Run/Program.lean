import ScriptAudit.Fault
import ScriptAudit.Number.Basic

/-!
# Programs

A `Program` is an interpreter with a known behaviour: it shows its arguments if it is asked to,
prints what has been recorded for it, may wait for a while, and ends. `Program.run` tells what a
caller sees who waits for the end no longer than a given time.
-/

namespace ScriptAudit

/-- How an attempt to execute a program comes out. -/
inductive Outcome
  /-- The program could not be started. -/
  | refused (fault : FileFault)
  /-- The program did not end in time. -/
  | timedOut
  /-- The program ended, with a code that is negative for a program ended by a signal. -/
  | exited (code : Int) (output errors : Bytes)

/-- What a program is started with. -/
structure Invocation where
  /-- The program, as its caller writes it. -/
  executable : Text
  arguments : List Text
  /-- The names from the root to the directory in which the program is to work. -/
  directory : List Text
  /-- The number of seconds that the caller waits for the end. -/
  limit : Number

/-- An interpreter with a known behaviour. -/
structure Program where
  /-- Whether the arguments and the working directory are printed first. -/
  showsArguments : Bool := false
  /-- The number of seconds to wait after printing; a program that waits ends without a fault. -/
  pause : Option Float := none
  /-- The signal that the program sends to itself. -/
  signal : Option Nat := none
  /-- Whether requests to end are ignored. -/
  ignoresTermination : Bool := false
  /-- The code with which the program ends of its own accord. -/
  code : Nat := 0

namespace Program

/-- The number of seconds that a program takes to start. -/
def startup : Float := 0.002

/-- The signals that end no program. -/
def harmless : List Nat := [0, 17, 18, 23, 28]

/-- The signal that asks a program to end. -/
def termination : Nat := 15

/-- Whether a signal ends the program. -/
def isEndedBy (p : Program) (signal : Nat) : Bool :=
  !harmless.contains signal && !(p.ignoresTermination && signal == termination)

/-- The code with which the program ends. -/
def exitCode (p : Program) : Int :=
  if p.pause.isSome then 0
  else
    match p.signal.filter p.isEndedBy with
    | some n => -n
    | none => p.code % 256

/-- The lines that show the arguments and the working directory. -/
def argumentLines (i : Invocation) : Text :=
  i.arguments.flatMap (fun a => "ARG ".toList ++ a ++ ['\n']) ++
    "DIR ".toList ++ i.directory.getLast?.getD ['/'] ++ ['\n']

/-- Whether the program is still at work when its caller has waited for `limit` seconds. -/
def outlasts (p : Program) (limit : Float) : Bool := !(p.pause.getD 0 + startup < limit)

/-- What the caller of a program sees, given what is recorded for it. -/
def run (p : Program) (output errors : Bytes) (i : Invocation) (limit : Float) : Outcome :=
  if p.outlasts limit then .timedOut
  else
    .exited p.exitCode
      ((if p.showsArguments then Utf8.encode (argumentLines i) else []) ++ output) errors

end Program

end ScriptAudit
