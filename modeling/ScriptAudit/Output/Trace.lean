import ScriptAudit.Fault
import ScriptAudit.Text.Line

/-!
# Traces

The interpreter writes a line for each command that it executes and for each result, indented by
the depth of the call. `Trace.tokens` reads these lines and passes over all others.
`Trace.Builder` nests the commands token by token: a command belongs to the nearest earlier one that
is indented less, a result to the command before it. `Trace.flattenAll` undoes the nesting.
-/

namespace ScriptAudit

namespace Trace

/-! ## Lines -/

/-- What a line of a trace tells. -/
inductive Event
  /-- A command is executed. -/
  | command
  /-- The command before it has a result. -/
  | result (code : Nat)
  deriving DecidableEq

/-- A line of a trace. -/
structure Token where
  event : Event
  level : Nat
  timestamp : Text
  text : Text
  line : Nat
  deriving DecidableEq

/-- The number of blanks for each level of calls. -/
def indentWidth : Nat := 3

/-- Takes exactly `n` digits off the text. -/
def digits? (n : Nat) (t : Text) : Option (Text × Text) :=
  let ds := t.take n
  if ds.length = n && ds.all isDecimal then some (ds, t.drop n) else none

/-- Takes numbers with the given counts of digits off the text, with `sep` between them. -/
def fields? (sep : Char) : List Nat → Text → Option (Text × Text)
  | [], t => some ([], t)
  | [n], t => digits? n t
  | n :: ns, t => do
    let (ds, t) ← digits? n t
    let t ← Text.after? [sep] t
    let (rest, t) ← fields? sep ns t
    return (ds ++ sep :: rest, t)

/-- Takes at least one blank off the text. -/
def gap? (t : Text) : Option (Text × Text) :=
  let blanks := t.takeWhile isBlank
  if blanks.isEmpty then none else some (blanks, t.drop blanks.length)

/-- Takes a date and a time off the text. -/
def timestamp? (t : Text) : Option (Text × Text) := do
  let (date, t) ← fields? '-' [4, 2, 2] t
  let (blanks, t) ← gap? t
  let (time, t) ← fields? ':' [2, 2, 2] t
  return (date ++ blanks ++ time, t)

/-- The number that digits of any script stand for. -/
def count (ds : Text) : Except Fault Nat :=
  if ds.length > Numeral.maxDigits then .error (.integerDigits ds.length)
  else .ok (Numeral.value (ds.filterMap decimalValue?))

/-- What stands on a line of a trace without margins: a timestamp, the digits of a result's code,
and a text. -/
structure Entry where
  timestamp : Text
  code : Option Text
  text : Text

/-- Reads a line without margins. -/
def entry? (t : Text) : Option Entry := do
  let (timestamp, t) ← timestamp? t
  let (_, t) ← gap? t
  match Text.after? "Command:" t with
  | some t => do
    let (_, t) ← gap? t
    if t.isEmpty then none else return ⟨timestamp, none, t⟩
  | none => do
    let t ← Text.after? "Result" t
    let (_, t) ← gap? t
    let t ← Text.after? ['('] t
    let code := t.takeWhile isDecimal
    let t ← Text.after? [')'] (t.drop code.length)
    let (_, t) ← gap? t
    if code.isEmpty || t.isEmpty then none else return ⟨timestamp, some code, t⟩

/-- The token of a line, if it belongs to the trace. -/
def token? (number : Nat) (line : Text) : Except Fault (Option Token) :=
  match entry? (Text.trim line) with
  | none => .ok none
  | some e => do
    let event ← match e.code with
      | none => pure .command
      | some ds => (count ds).map .result
    return some ⟨event, Text.margin line / indentWidth, e.timestamp, Text.trim e.text, number⟩

/-- The tokens of numbered lines. -/
def tokensFrom : (number : Nat) → List Text → Except Fault (List Token)
  | _, [] => .ok []
  | n, l :: ls => do
    let token ← token? n l
    return token.toList ++ (← tokensFrom (n + 1) ls)

/-- The tokens of a text. -/
def tokens (raw : Text) : Except Fault (List Token) := tokensFrom 1 (Text.lines raw)

/-! ## Commands and their results -/

/-- The outcome of a command. -/
structure Outcome where
  code : Nat
  text : Text
  deriving DecidableEq

/-- A command that was executed. -/
structure Run where
  timestamp : Text
  text : Text
  level : Nat
  outcome : Option Outcome
  deriving DecidableEq

/-- The first word of a command. -/
def Run.command (r : Run) : Text := ((Text.words r.text).head?).getD r.text

/-! ## Nesting -/

/-- A command with the commands that it called. -/
inductive Node
  | mk (run : Run) (children : List Node)

namespace Node

/-- The command of a node. -/
def run : Node → Run
  | mk r _ => r

/-- The nodes that a node called. -/
def children : Node → List Node
  | mk _ cs => cs

end Node

/-- A command under way, and the trees of the calls that it has made so far, last one first. -/
structure Frame where
  run : Run
  calls : List Node

/-- A forest under construction: the finished trees, last one first, and the commands under way,
innermost first. -/
structure Builder where
  trees : List Node := []
  path : List Frame := []

namespace Builder

/-- Ends commands under way, innermost first, as long as they satisfy `p`. The tree of each one
goes to the command that called it; `calls` is what the innermost one still has to take over. -/
def closeWhile (p : Run → Bool) (trees : List Node) : (calls : List Node) → List Frame → Builder
  | calls, [] => ⟨calls ++ trees, []⟩
  | calls, f :: fs =>
    if p f.run then closeWhile p trees [.mk f.run (calls ++ f.calls).reverse] fs
    else ⟨trees, ⟨f.run, calls ++ f.calls⟩ :: fs⟩

/-- Begins a command below the innermost one of a lower level. -/
def call (b : Builder) (r : Run) : Builder :=
  let b := closeWhile (fun above => r.level ≤ above.level) b.trees [] b.path
  { b with path := ⟨r, []⟩ :: b.path }

/-- Gives the innermost command its result, in place of an earlier one. -/
def settle (b : Builder) (o : Outcome) : Builder :=
  match b.path with
  | [] => b
  | f :: fs => { b with path := { f with run := { f.run with outcome := some o } } :: fs }

/-- Takes in a token. -/
def step (b : Builder) (t : Token) : Builder :=
  match t.event with
  | .command => b.call ⟨t.timestamp, t.text, t.level, none⟩
  | .result code => b.settle ⟨code, t.text⟩

/-- The forest after all commands under way have ended. -/
def forest (b : Builder) : List Node := (closeWhile (fun _ => true) b.trees [] b.path).trees.reverse

end Builder

/-- The forest of a list of tokens. -/
def forest (ts : List Token) : List Node := (ts.foldl Builder.step {}).forest

mutual

/-- The commands of a tree, each before those that it called. -/
def Node.flatten : Node → List Run
  | .mk r cs => r :: flattenAll cs

/-- The commands of a forest, each before those that it called. Calls may be nested to any depth: that
the stack of a program is limited is left out. -/
def flattenAll : List Node → List Run
  | [] => []
  | n :: ns => n.flatten ++ flattenAll ns

end

/-- The commands of a text, in order. -/
def ofText (raw : Text) : Except Fault (List Run) :=
  (tokens raw).map fun ts => flattenAll (forest ts)

end Trace

end ScriptAudit
