import ScriptAudit.Yaml.Token.Fold

/-!
# Quoted scalars

Between apostrophes a doubled apostrophe stands for one; between double quotes a backslash begins
an escape, and one at the end of a line joins it to the next line.
-/

namespace ScriptAudit.Yaml.QuotedScalar

/-- The character for an escape of one letter. -/
def letterEscape? : Char → Option Char
  | '0' => some '\x00'
  | 'a' => some '\x07'
  | 'b' => some '\x08'
  | 't' => some '\t'
  | '\t' => some '\t'
  | 'n' => some '\n'
  | 'v' => some '\x0b'
  | 'f' => some '\x0c'
  | 'r' => some '\r'
  | 'e' => some '\x1b'
  | ' ' => some ' '
  | '"' => some '"'
  | '/' => some '/'
  | '\\' => some '\\'
  | 'N' => some '\u0085'
  | '_' => some '\u00a0'
  | 'L' => some '\u2028'
  | 'P' => some '\u2029'
  | _ => none

/-- The number of hexadecimal digits after the letter of an escape. -/
def escapeWidth? : Char → Option Nat
  | 'x' => some 2
  | 'u' => some 4
  | 'U' => some 8
  | _ => none

/-- The value of a hexadecimal digit. -/
def hexDigit? (c : Char) : Option Nat :=
  if '0' ≤ c ∧ c ≤ '9' then some (c.toNat - 48)
  else if 'a' ≤ c ∧ c ≤ 'f' then some (c.toNat - 87)
  else if 'A' ≤ c ∧ c ≤ 'F' then some (c.toNat - 55)
  else none

/-- The number that `width` hexadecimal digits stand for. -/
def hexValue? (width : Nat) (t : Text) : Option Nat :=
  if t.length < width then none
  else (t.take width).foldlM (fun n c => (hexDigit? c).map (16 * n + ·)) 0

/-- The character that a backslash and what follows it stand for, and their length. -/
def escape? (t : Text) : Option (Char × Nat) :=
  match t with
  | '\\' :: e :: t =>
    match letterEscape? e with
    | some c => some (c, 2)
    | none => do
      let width ← escapeWidth? e
      let n ← hexValue? width t
      if n.isValidChar then some (Char.ofNat n, width + 2) else none
  | _ => none

/-- Reads up to the closing mark. `value` is the scalar so far, last character first; `inGap` tells
whether blanks and line breaks are being read. -/
def scan (single : Bool) :
    (fuel : Nat) → (inGap : Bool) → (value : Text) → Gap → Cursor → Option (Text × Cursor)
  | 0, _, _, _, _ => none
  | fuel + 1, true, value, gap, c =>
    match c.rest with
    | [] => none
    | x :: _ =>
      if isBlank x then scan single fuel true value (gap.blank x) c.next
      else if isBreak x then scan single fuel true value (gap.lineBreak c.lineBreak) c.nextLine
      else if c.atMarker then none
      else scan single fuel false (gap.text.reverse ++ value) {} c
  | fuel + 1, false, value, gap, c =>
    match c.rest with
    | [] => none
    | x :: rest =>
      if isBlank x || isBreak x then scan single fuel true value gap c
      else if single then
        if x != '\'' then scan single fuel false (x :: value) gap c.next
        else if rest.head? = some '\'' then scan single fuel false ('\'' :: value) gap (c.advance 2)
        else some (value.reverse, c.next)
      else if x == '"' then some (value.reverse, c.next)
      else if x == '\\' then
        if c.at? 1 isBreak then scan single fuel true value { broken := true } c.next.nextLine
        else
          match escape? c.rest with
          | some (y, n) => scan single fuel false (y :: value) gap (c.advance n)
          | none => none
      else scan single fuel false (x :: value) gap c.next

/-- The quoted scalar whose opening mark is the next character, and the place after it. -/
def read? (single : Bool) (c : Cursor) : Option (Text × Cursor) :=
  scan single (3 * c.rest.length + 3) false [] {} c.next

end ScriptAudit.Yaml.QuotedScalar
