import ScriptAudit.Text.Basic

/-!
# A place in a YAML text

A `Cursor` is the text that is still to be read, together with the line, the column and the number
of characters before it. `Cursor.next` passes over a character and `Cursor.nextLine` over a line
break, which may be a carriage return followed by a line feed.
-/

namespace ScriptAudit.Yaml

/-! ## Characters -/

/-- Space and tab. -/
def isBlank (c : Char) : Bool := c == ' ' || c == '\t'

/-- The characters that end a line. -/
def isBreak (c : Char) : Bool :=
  c == '\n' || c == '\r' || c == '\u0085' || c == '\u2028' || c == '\u2029'

/-- The characters of the names of anchors, tag handles and directives. -/
def isNameChar (c : Char) : Bool := c.isAlphanum || c == '_' || c == '-'

/-- The characters that a YAML text may hold. -/
def isAllowed (c : Char) : Bool :=
  let n := c.toNat
  n == 9 || n == 10 || n == 13 || (0x20 ≤ n && n ≤ 0x7e) || n == 0x85 || (0xa0 ≤ n && n ≤ 0xfffd) ||
    0x10000 ≤ n

/-- The break of a line as it enters a scalar: a line feed, unless it separates paragraphs. -/
def breakText (c : Char) : Text := if c == '\u2028' || c == '\u2029' then [c] else ['\n']

/-! ## Places -/

/-- The rest of a text and where it begins. -/
structure Cursor where
  rest : Text
  line : Nat
  column : Nat
  index : Nat

namespace Cursor

/-- The beginning of a text. -/
def start (t : Text) : Cursor := ⟨t, 0, 0, 0⟩

/-- The place after the next character. -/
def next (c : Cursor) : Cursor := ⟨c.rest.drop 1, c.line, c.column + 1, c.index + 1⟩

/-- The place after the next `n` characters. -/
def advance (n : Nat) (c : Cursor) : Cursor := ⟨c.rest.drop n, c.line, c.column + n, c.index + n⟩

/-- The place after the line break that comes next, if one does. -/
def nextLine (c : Cursor) : Cursor :=
  match c.rest with
  | '\r' :: '\n' :: t => ⟨t, c.line + 1, 0, c.index + 2⟩
  | b :: t => if isBreak b then ⟨t, c.line + 1, 0, c.index + 1⟩ else c
  | [] => c

/-- The text of the line break that comes next; empty when none does. -/
def lineBreak (c : Cursor) : Text :=
  match c.rest with
  | b :: _ => if isBreak b then breakText b else []
  | [] => []

/-- Whether the `n`th character ahead satisfies `p`. -/
def at? (c : Cursor) (n : Nat) (p : Char → Bool) : Bool := (c.rest[n]?).any p

/-- Whether the next character satisfies `p`. -/
def sees (c : Cursor) (p : Char → Bool) : Bool := c.rest.head?.any p

/-- Whether nothing is left. -/
def atEnd (c : Cursor) : Bool := c.rest.isEmpty

/-- Whether the line, or the text, ends here. -/
def atLineEnd (c : Cursor) : Bool := c.atEnd || c.sees isBreak

/-- Whether a blank, a line break or the end of the text is `n` characters ahead. -/
def spaceAt (c : Cursor) (n : Nat) : Bool :=
  match c.rest[n]? with
  | none => true
  | some x => isBlank x || isBreak x

/-- Whether a line begins here with three of a character, followed by space. -/
def marks (c : Cursor) (x : Char) : Bool :=
  c.column == 0 && [x, x, x].isPrefixOf c.rest && c.spaceAt 3

/-- Whether a marker of the start or end of a document stands here. -/
def atMarker (c : Cursor) : Bool := c.marks '-' || c.marks '.'

/-- The place after the characters that satisfy `p`, none of which is a line break. -/
def skipWhile (p : Char → Bool) (c : Cursor) : Cursor := c.advance (c.rest.takeWhile p).length

/-- The place at the end of the line. -/
def skipLine (c : Cursor) : Cursor := c.skipWhile fun x => !isBreak x

end Cursor

end ScriptAudit.Yaml
