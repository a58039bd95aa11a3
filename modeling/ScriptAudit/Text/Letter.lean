import ScriptAudit.Text.Basic
import ScriptAudit.Text.Tables

/-!
# Classes of characters

Blank characters, line breaks, word characters and digits, each in every script. A line break is
always blank; a digit is always a word character.
-/

namespace ScriptAudit

/-! ## Blanks and line breaks -/

/-- White space in every script, together with the four separators of information. -/
def isBlank (c : Char) : Bool :=
  let n := c.toNat
  (9 ≤ n && n ≤ 13) || (28 ≤ n && n ≤ 32) || n == 0x85 || n == 0xa0 || n == 0x1680 ||
    (0x2000 ≤ n && n ≤ 0x200a) || n == 0x2028 || n == 0x2029 || n == 0x202f || n == 0x205f ||
    n == 0x3000

/-- The characters at which a text is cut into lines. -/
def isBreak (c : Char) : Bool :=
  let n := c.toNat
  (10 ≤ n && n ≤ 13) || (28 ≤ n && n ≤ 30) || n == 0x85 || n == 0x2028 || n == 0x2029

/-- Every line break is blank. -/
theorem isBlank_of_isBreak {c : Char} (h : isBreak c = true) : isBlank c = true := by
  simp only [isBreak, isBlank, Bool.or_eq_true, Bool.and_eq_true, decide_eq_true_eq,
    beq_iff_eq] at h ⊢
  omega

/-! ## Words and digits -/

/-- Letters and numbers of every script, and the underscore. -/
def isWord (c : Char) : Bool :=
  if c.toNat < 128 then c.isAlphanum || c == '_' else Text.Tables.alphanumeric.has c.toNat

/-- The value of a decimal digit of any script. -/
def decimalValue? (c : Char) : Option Nat :=
  let n := c.toNat
  if n < 128 then
    if c.isDigit then some (n - 48) else none
  else
    (Text.Tables.decimalZeros.find? fun z => z ≤ n && n ≤ z + 9).map fun z => n - z

/-- Decimal digits of every script. -/
def isDecimal (c : Char) : Bool := (decimalValue? c).isSome

/-- Decimal digits and digits of a special shape, such as superscripts. -/
def isDigit (c : Char) : Bool :=
  if c.toNat < 128 then c.isDigit else Text.Tables.digits.has c.toNat

/-- Upper-case letters of every script. -/
def isUpper (c : Char) : Bool :=
  if c.toNat < 128 then c.isUpper else Text.Tables.upperCase.has c.toNat

/-- Characters that can be shown as they are. -/
def isPrintable (c : Char) : Bool :=
  if c.toNat < 128 then 32 ≤ c.toNat && c.toNat < 127 else Text.Tables.printable.has c.toNat

end ScriptAudit
