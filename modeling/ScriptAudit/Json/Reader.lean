import ScriptAudit.Json.Basic
import ScriptAudit.Number.Numeral

/-!
# Reading JSON

`Json.read?` reads one value from a whole text. Besides the values of the standard it knows `NaN`,
`Infinity` and `-Infinity`; of two fields with one name the last one counts. Integers with more
digits than `Numeral.maxDigits` are refused.
-/

namespace ScriptAudit.Json

/-- White space between the tokens. -/
def isSpace (c : Char) : Bool := c == ' ' || c == '\t' || c == '\n' || c == '\r'

/-- The text without leading white space. -/
def skipSpace (t : Text) : Text := t.dropWhile isSpace

/-! ## Strings -/

/-- The value of a hexadecimal digit. -/
def hexDigit? (c : Char) : Option Nat :=
  if '0' ≤ c ∧ c ≤ '9' then some (c.toNat - 48)
  else if 'a' ≤ c ∧ c ≤ 'f' then some (c.toNat - 87)
  else if 'A' ≤ c ∧ c ≤ 'F' then some (c.toNat - 55)
  else none

/-- The number that hexadecimal digits stand for. -/
def hexValue? (t : Text) : Option Nat :=
  t.foldl (fun n c => do return 16 * (← n) + (← hexDigit? c)) (some 0)

/-- The character for an escape of one letter. -/
def simpleEscape? : Char → Option Char
  | '"' => some '"'
  | '\\' => some '\\'
  | '/' => some '/'
  | 'b' => some '\x08'
  | 'f' => some '\x0c'
  | 'n' => some '\n'
  | 'r' => some '\r'
  | 't' => some '\t'
  | _ => none

/-- What is left of the first half of a pair when the second half is missing. -/
def loneHalf (half : Option Nat) : Text := if half.isSome then ['\ufffd'] else []

/-- The rest of a string after its opening quotation mark, and what follows its closing one. The
first half of a pair of escapes that stand for one character is held back in `half`. -/
def string? : (half : Option Nat) → Text → Option (Text × Text)
  | half, '"' :: t => some (loneHalf half, t)
  | half, '\\' :: 'u' :: a :: b :: c :: d :: t => do
    let n ← hexValue? [a, b, c, d]
    if 0xd800 ≤ n && n < 0xdc00 then
      let (s, rest) ← string? (some n) t
      return (loneHalf half ++ s, rest)
    else if 0xdc00 ≤ n && n < 0xe000 then
      let (s, rest) ← string? none t
      match half with
      | some high =>
        return (Char.ofNat (0x10000 + (high - 0xd800) * 0x400 + (n - 0xdc00)) :: s, rest)
      | none => return ('\ufffd' :: s, rest)
    else
      let (s, rest) ← string? none t
      return (loneHalf half ++ Char.ofNat n :: s, rest)
  | half, '\\' :: e :: t => do
    let c ← simpleEscape? e
    let (s, rest) ← string? none t
    return (loneHalf half ++ c :: s, rest)
  | half, c :: t => do
    if c.toNat < 32 || c = '\\' then none
    else
      let (s, rest) ← string? none t
      return (loneHalf half ++ c :: s, rest)
  | _, [] => none

/-! ## Numbers -/

/-- The number that the text begins with, after its sign, and what follows it. -/
def number? (negative : Bool) (t : Text) : Option (Number × Text) :=
  let whole := t.takeWhile Char.isDigit
  let whole := if whole.head? = some '0' then ['0'] else whole
  if whole.isEmpty then none
  else
    let rest := t.drop whole.length
    let fraction :=
      match rest with
      | '.' :: r => r.takeWhile Char.isDigit
      | _ => []
    let rest := if fraction.isEmpty then rest else rest.drop (fraction.length + 1)
    let exponent := exponentOf rest
    let rest := rest.drop exponent.length
    let digits := fun (ds : Text) => Numeral.value (ds.map fun c => c.toNat - 48)
    if fraction.isEmpty && exponent.isEmpty then
      if whole.length > Numeral.maxDigits then none
      else some (.int (if negative then -(digits whole : Int) else digits whole), rest)
    else
      let e := (Numeral.exponent? exponent).getD 0 - fraction.length
      some (.float (Binary64.ofDecimal negative (digits (whole ++ fraction)) e), rest)
where
  /-- The exponent that the text begins with, as it is written. -/
  exponentOf : Text → Text
    | e :: t =>
      if e = 'e' || e = 'E' then
        let signed : Text :=
          match t with
          | '-' :: _ => ['-']
          | '+' :: _ => ['+']
          | _ => []
        let ds := (t.drop signed.length).takeWhile Char.isDigit
        if ds.isEmpty then [] else e :: signed ++ ds
      else []
    | [] => []

/-- The values that are written as a word, and the numbers. -/
def atom? (t : Text) : Option (Json × Text) :=
  match t with
  | 'n' :: 'u' :: 'l' :: 'l' :: t => some (.null, t)
  | 't' :: 'r' :: 'u' :: 'e' :: t => some (.bool true, t)
  | 'f' :: 'a' :: 'l' :: 's' :: 'e' :: t => some (.bool false, t)
  | 'N' :: 'a' :: 'N' :: t => some (.num (.float Binary64.nan), t)
  | '-' :: t =>
    match Text.after? "Infinity" t with
    | some t => some (.num (.float (Binary64.infinity true)), t)
    | none => (number? true t).map fun (n, t) => (.num n, t)
  | t =>
    match Text.after? "Infinity" t with
    | some t => some (.num (.float (Binary64.infinity false)), t)
    | none => (number? false t).map fun (n, t) => (.num n, t)

/-! ## Values -/

mutual

/-- The value that the text begins with, and what follows it. Values may be nested to any depth that
the fuel allows, which is all that the text has room for: that the stack of a program is limited is
left out. -/
def value? : (fuel : Nat) → Text → Option (Json × Text)
  | 0, _ => none
  | _ + 1, '"' :: t => do
    let (s, t) ← string? none t
    return (.str s, t)
  | fuel + 1, '{' :: t =>
    match skipSpace t with
    | '}' :: t => some (.obj [], t)
    | t => members? fuel [] t
  | fuel + 1, '[' :: t =>
    match skipSpace t with
    | ']' :: t => some (.arr [], t)
    | t => items? fuel [] t
  | _ + 1, t => atom? t

/-- The remaining items of an array; `done` holds the earlier ones, last one first. -/
def items? : (fuel : Nat) → (done : List Json) → Text → Option (Json × Text)
  | 0, _, _ => none
  | fuel + 1, done, t => do
    let (v, t) ← value? fuel t
    match skipSpace t with
    | ',' :: t => items? fuel (v :: done) (skipSpace t)
    | ']' :: t => return (.arr (v :: done).reverse, t)
    | _ => none

/-- The remaining fields of an object; `done` holds the earlier ones. -/
def members? : (fuel : Nat) → (done : List (Text × Json)) → Text → Option (Json × Text)
  | 0, _, _ => none
  | fuel + 1, done, t => do
    let '"' :: t := t | none
    let (key, t) ← string? none t
    let ':' :: t := skipSpace t | none
    let (v, t) ← value? fuel (skipSpace t)
    match skipSpace t with
    | ',' :: t => members? fuel (put key v done) (skipSpace t)
    | '}' :: t => return (.obj (put key v done), t)
    | _ => none

end

/-- The value that a whole text stands for. -/
def read? (t : Text) : Option Json :=
  let t := skipSpace t
  match value? (t.length + 1) t with
  | some (v, rest) => if (skipSpace rest).isEmpty then some v else none
  | none => none

end ScriptAudit.Json
