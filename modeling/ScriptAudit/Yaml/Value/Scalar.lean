import ScriptAudit.Yaml.Loader
import ScriptAudit.Yaml.Tag
import ScriptAudit.Text.Case

/-!
# What scalars mean

`Value.ofScalar` gives the value of a text under a type. A type that admits no scalar refuses it;
a text that does not suit its type is a fault.
-/

namespace ScriptAudit.Yaml

namespace Value

/-! ## Numbers -/

/-- Removes underscores. -/
def ungrouped (t : Text) : Text := t.filter (· != '_')

/-- An integer in base ten. -/
def decimal (t : Text) : Except Fault Int :=
  match Numeral.int? t with
  | .ok i => .ok i
  | .error .malformed => .error (.noInteger 10 t)
  | .error (.tooLong n) => .error (.integerDigits n)

/-- An integer in another base. -/
def inBase (base : Nat) (t : Text) : Except Fault Int :=
  match Numeral.inBase? base t with
  | some i => .ok i
  | none => .error (.noInteger base t)

/-- Takes a sign off a text that may not be empty. -/
def signed (t : Text) : Except Fault (Bool × Text) :=
  if t.isEmpty then .error .emptyNumeral else .ok (Numeral.sign t)

/-- The integer that a text stands for: binary, hexadecimal or octal after a mark, with parts in
base sixty, or decimal. -/
def intOf (t : Text) : Except Fault Int := do
  let (negative, t) ← signed (ungrouped t)
  let n ← match t with
    | [] => .error .emptyNumeral
    | ['0'] => pure 0
    | '0' :: 'b' :: ds => inBase 2 ds
    | '0' :: 'x' :: ds => inBase 16 ds
    | '0' :: _ => inBase 8 t
    | t =>
      if t.elem ':' then do
        let parts ← (Text.splitAt ':' t).mapM decimal
        pure (parts.foldl (fun n d => 60 * n + d) 0)
      else decimal t
  return if negative then -n else n

/-- A decimal fraction. -/
def fraction (t : Text) : Except Fault Float :=
  match Numeral.float? t with
  | some x => .ok x
  | none => .error (.noFraction t)

/-- A sum of digits in base sixty, the last digit first. -/
def sexagesimal : (base : Nat) → (sum : Float) → List Float → Except Fault Float
  | _, sum, [] => .ok sum
  | base, sum, d :: ds =>
    match Binary64.ofInt? base with
    | some b => sexagesimal (60 * base) (sum + d * b) ds
    | none => .error .integerRange

/-- The floating-point number that a text stands for. -/
def floatOf (t : Text) : Except Fault Float := do
  let (negative, t) ← signed (Text.lower (ungrouped t))
  let sign (x : Float) : Float := if negative then -x else x
  if t == ".inf".toList then return Binary64.infinity negative
  else if t == ".nan".toList then return Binary64.nan
  else if t.elem ':' then
    let parts ← (Text.splitAt ':' t).mapM fraction
    return sign (← sexagesimal 1 (Binary64.withSign false 0) parts.reverse)
  else return sign (← fraction t)

/-! ## Bytes -/

/-- The value of a character that stands for six bits. -/
def sixBits? (c : Char) : Option Nat :=
  if 'A' ≤ c ∧ c ≤ 'Z' then some (c.toNat - 65)
  else if 'a' ≤ c ∧ c ≤ 'z' then some (c.toNat - 71)
  else if c.isDigit then some (c.toNat + 4)
  else if c = '+' then some 62
  else if c = '/' then some 63
  else none

/-- The bytes that characters of six bits each stand for. Other characters are passed over; an
incomplete group is refused unless it is filled up. `place` counts the characters of the group
under way, `bits` is what they hold, and `fill` counts the fillers. -/
def base64? : (place bits fill : Nat) → Text → Option Bytes
  | place, _, _, [] => if place = 0 then some [] else none
  | place, bits, fill, c :: t =>
    if c = '=' then
      if place ≥ 2 && place + fill + 1 ≥ 4 then some []
      else base64? place bits (fill + 1) t
    else
      match sixBits? c with
      | none => base64? place bits fill t
      | some n =>
        match place with
        | 0 => base64? 1 n 0 t
        | 1 => (base64? 2 (n % 16) 0 t).map (UInt8.ofNat (bits * 4 + n / 16) :: ·)
        | 2 => (base64? 3 (n % 4) 0 t).map (UInt8.ofNat (bits * 16 + n / 4) :: ·)
        | _ => (base64? 0 0 0 t).map (UInt8.ofNat (bits * 64 + n) :: ·)

/-! ## Other types -/

/-- The truth value that a word stands for. -/
def boolOf (t : Text) : Except Fault Bool :=
  let w := String.ofList (Text.lower t)
  if ["yes", "true", "on"].elem w then .ok true
  else if ["no", "false", "off"].elem w then .ok false
  else .error (.noTruth (Text.lower t))

/-- The day or time that a text stands for. -/
def timestampOf (t : Text) : Except Fault Value := do
  -- a line feed at the end does not count
  let t := if t.getLast? == some '\n' then t.dropLast else t
  match Timestamp.read? t with
  | none => .error .noDate
  | some s =>
    match ← s.value with
    | .inl d => return .date d
    | .inr m => return .moment m

/-- The value of a text under a type. -/
def ofScalar (tag : Tag) (t : Text) : Except Refusal Value :=
  match tag with
  | .null => .ok .null
  | .bool => (boolOf t).mapError .fault |>.map .bool
  | .int => (intOf t).mapError .fault |>.map fun i => .num (.int i)
  | .float => (floatOf t).mapError .fault |>.map fun x => .num (.float x)
  | .timestamp => (timestampOf t).mapError .fault
  | .str => .ok (.str t)
  | .binary =>
    if t.all fun c => c.toNat < 128 then
      match base64? 0 0 0 t with
      | some bs => .ok (.bytes bs)
      | none => .error .unsuitable
    else .error .unsuitable
  | _ => .error .unsuitable

end Value

end ScriptAudit.Yaml
