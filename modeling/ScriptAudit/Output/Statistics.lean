import ScriptAudit.Output.Trace
import ScriptAudit.Json.Reader

/-!
# Statistics

The output ends with an array that tells for each address how often it was called and how long the
calls took. `Statistics.read` reads it. An entry that is not well formed makes the whole array
count for nothing; a number out of range is a fault.
-/

namespace ScriptAudit

/-- How often an address was called and how long the calls took, in milliseconds. -/
structure ServerCall where
  url : Json
  count : Number
  average : Number
  longest : Number
  shortest : Number

namespace Statistics

/-- What separates the error output from the output before it. -/
def separator : Text := "\n--- STDERR ---\n"

/-- Why an entry is not read. -/
inductive Refusal
  /-- The entry is not well formed. -/
  | malformed
  /-- A number is out of range. -/
  | fault (f : Fault)

/-- A floating-point number without its fraction. -/
def truncated (x : Float) : Except Refusal Int :=
  match Binary64.decode x with
  | .nan => .error .malformed
  | .infinite _ => .error (.fault .infiniteCount)
  | .finite negative m q =>
    let (n, d) := Binary64.ratio m q
    .ok (if negative then -((n / d : Nat) : Int) else (n / d : Nat))

/-- The integer that a value stands for. -/
def intOf : Json → Except Refusal Int
  | .num (.int i) => .ok i
  | .num (.float x) => truncated x
  | .bool b => .ok (if b then 1 else 0)
  | .str t => (Numeral.int? t).mapError fun _ => .malformed
  | _ => .error .malformed

/-- The floating-point number that a value stands for. -/
def floatOf : Json → Except Refusal Float
  | .num n =>
    match n.toFloat? with
    | some x => .ok x
    | none => .error (.fault .integerRange)
  | .bool b => .ok (if b then 1.0 else 0.0)
  | .str t =>
    match Numeral.float? t with
    | some x => .ok x
    | none => .error .malformed
  | _ => .error .malformed

/-- A field that has to be there. -/
def required (key : String) (fields : List (Text × Json)) : Except Refusal Json :=
  match Json.get? key fields with
  | some v => .ok v
  | none => .error .malformed

/-- Reads an entry. -/
def entry : Json → Except Refusal ServerCall
  | .obj fields => do
    let url ← required "Url" fields
    let count ← intOf (← required "Count" fields)
    let average ← floatOf (← required "Avg" fields)
    let longest ← floatOf (← required "Max" fields)
    let shortest ← floatOf (← required "Min" fields)
    return ⟨url, .int count, .float average, .float longest, .float shortest⟩
  | _ => .error .malformed

/-! ## Where the array stands -/

/-- The text before its final brace, when after this nothing but a square bracket follows. -/
def beforeEnd? (t : Text) : Option Text :=
  match (t.reverse.dropWhile isBlank) with
  | ']' :: r =>
    match r.dropWhile isBlank with
    | '}' :: r => some r.reverse
    | _ => none
  | _ => none

/-- The number of characters before the first square bracket that is followed by a brace. -/
def start? : Text → Option Nat
  | [] => none
  | c :: cs =>
    if c = '[' && (Text.trimLeft cs).head? = some '{' then some 0 else (start? cs).map (· + 1)

/-- The text of the array that ends the output. -/
def array? (raw : Text) : Option Text := do
  let t := Text.before separator raw
  let n ← start? (← beforeEnd? t)
  return t.drop n

/-- The statistics of a text; none when there is no well-formed array. -/
def read (raw : Text) : Except Fault (List ServerCall) :=
  match (array? raw).bind Json.read? with
  | some (.arr items) =>
    match items.mapM entry with
    | .ok calls => .ok calls
    | .error .malformed => .ok []
    | .error (.fault f) => .error f
  | _ => .ok []

end Statistics

end ScriptAudit
