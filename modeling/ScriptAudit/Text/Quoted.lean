import ScriptAudit.Text.Letter

/-!
# Quoted text

`Text.quoted` shows a text between quotation marks inside a message. The mark is an apostrophe
unless the text holds apostrophes and no double quotes. The mark, the backslash and every
character that cannot be shown as it is are written as escapes.
-/

namespace ScriptAudit.Text

/-- The lower-case hexadecimal digits of `n`, at least `width` of them. -/
def hex (width n : Nat) : Text :=
  let ds := Nat.toDigits 16 n
  copies (width - ds.length) '0' ++ ds

/-- A character inside quotation marks. -/
def escapeChar (mark c : Char) : Text :=
  if c = mark || c = '\\' then ['\\', c]
  else if c = '\n' then ['\\', 'n']
  else if c = '\r' then ['\\', 'r']
  else if c = '\t' then ['\\', 't']
  else if isPrintable c then [c]
  else if c.toNat < 0x100 then ['\\', 'x'] ++ hex 2 c.toNat
  else if c.toNat < 0x10000 then ['\\', 'u'] ++ hex 4 c.toNat
  else ['\\', 'U'] ++ hex 8 c.toNat

/-- The quotation mark that suits a text. -/
def quoteMark (t : Text) : Char := if t.elem '\'' && !t.elem '"' then '"' else '\''

/-- The text between quotation marks. -/
def quoted (t : Text) : Text :=
  let mark := quoteMark t
  mark :: t.flatMap (escapeChar mark) ++ [mark]

end ScriptAudit.Text
