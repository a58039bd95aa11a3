import ScriptAudit.Text.Line
import ScriptAudit.Text.Case
import ScriptAudit.Number.Binary64

/-!
# Numerals

`Numeral.int?` reads an integer and `Numeral.float?` a decimal fraction from a whole text. Blanks
around the numeral do not count, a sign may come first, digits of every script are digits, and a
single underscore may stand between two digits. An integer has at most `maxDigits` digits.
-/

namespace ScriptAudit.Numeral

/-- The greatest number of digits of an integer that is read. -/
def maxDigits : Nat := 4300

/-- Why a text is not read as an integer. -/
inductive Defect
  /-- The text is no numeral. -/
  | malformed
  /-- The numeral has more digits than are read. -/
  | tooLong (digits : Nat)

/-- What may stand around a numeral: blanks other than the separators of information. -/
def isMargin (c : Char) : Bool := isBlank c && !(28 ≤ c.toNat && c.toNat ≤ 31)

/-- Takes a sign off the text; a minus sign answers `true`. -/
def sign : Text → Bool × Text
  | '-' :: t => (true, t)
  | '+' :: t => (false, t)
  | t => (false, t)

/-- The number that a sequence of digits stands for. -/
def value (ds : List Nat) : Nat := ds.foldl (fun n d => 10 * n + d) 0

/-- Digits of any script with single underscores between them. -/
def grouped? : Text → Option (List Nat)
  | [] => none
  | [c] => (decimalValue? c).map ([·])
  | c :: '_' :: t => do return (← decimalValue? c) :: (← grouped? t)
  | c :: t => do return (← decimalValue? c) :: (← grouped? t)

/-- The integer that a text stands for. Too many digits are reported before what follows them. -/
def int? (t : Text) : Except Defect Int :=
  let (negative, t) := sign (t.trimOf isMargin)
  let run := t.takeWhile fun c => isDecimal c || c == '_'
  match grouped? run with
  | none => .error .malformed
  | some ds =>
    if ds.length > maxDigits then .error (.tooLong ds.length)
    else if run.length < t.length then .error .malformed
    else .ok (if negative then -(value ds : Int) else value ds)

/-! ## Other bases -/

/-- The value of a digit or letter as a digit in a base beyond ten. -/
def digitValue? (c : Char) : Option Nat :=
  if 'a' ≤ c ∧ c ≤ 'z' then some (c.toNat - 87)
  else if 'A' ≤ c ∧ c ≤ 'Z' then some (c.toNat - 55)
  else decimalValue? c

/-- The letter that marks a base after a zero. -/
def baseMark? : Nat → Option Char
  | 2 => some 'b'
  | 8 => some 'o'
  | 16 => some 'x'
  | _ => none

/-- The integer in the given base that a text stands for; its mark may come first. -/
def inBase? (base : Nat) (t : Text) : Option Int :=
  let (negative, t) := sign (t.trimOf isMargin)
  let t := match t with
    | '0' :: m :: rest => if baseMark? base == some m.toLower then rest else t
    | _ => t
  let digits := t.mapM fun c => (digitValue? c).bind fun d => if d < base then some d else none
  match digits with
  | none | some [] => none
  | some ds =>
    let n := ds.foldl (fun n d => base * n + d) 0
    some (if negative then -(n : Int) else n)

/-! ## Decimal fractions -/

/-- Digits that may be missing altogether. -/
def optional? (t : Text) : Option (List Nat) := if t.isEmpty then some [] else grouped? t

/-- The exponent of a decimal fraction; an absent one is zero. -/
def exponent? : Text → Option Int
  | [] => some 0
  | e :: t =>
    if e = 'e' || e = 'E' then
      let (negative, t) := sign t
      (grouped? t).map fun ds => if negative then -(value ds : Int) else value ds
    else none

/-- Whether a character may belong to the digits of a decimal fraction. -/
def isGroupChar (c : Char) : Bool := isDecimal c || c == '_'

/-- A decimal fraction without a sign, as its digits and the exponent of the last one. -/
def fraction? (t : Text) : Option (List Nat × Int) := do
  let whole ← optional? (t.takeWhile isGroupChar)
  let rest := t.dropWhile isGroupChar
  let (tenths, rest) ←
    match rest with
    | '.' :: rest => do
      pure (← optional? (rest.takeWhile isGroupChar), rest.dropWhile isGroupChar)
    | rest => pure ([], rest)
  if whole.isEmpty && tenths.isEmpty then none
  else return (whole ++ tenths, (← exponent? rest) - tenths.length)

/-- The number that a text stands for, rounded to the nearest one that can be stored. -/
def float? (t : Text) : Option Float :=
  let (negative, t) := sign (t.trimOf isMargin)
  let name := t.map Char.toLower
  if name == "inf".toList || name == "infinity".toList then some (Binary64.infinity negative)
  else if name == "nan".toList then some Binary64.nan
  else (fraction? t).map fun (ds, e) => Binary64.ofDecimal negative (value ds) e

end ScriptAudit.Numeral
