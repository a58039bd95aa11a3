import ScriptAudit.Json.Basic
import ScriptAudit.Text.Quoted

/-!
# Writing JSON

`Json.compact` writes a value on one line and `Json.indented` writes each item of an array and
each field of an object on a line of its own. Only visible ASCII characters are written as they
are; all others are escaped, those beyond the first plane as a pair of escapes.
-/

namespace ScriptAudit.Json

/-- An escape of four hexadecimal digits. -/
def unitEscape (n : Nat) : Text := '\\' :: 'u' :: Text.hex 4 n

/-- A character inside a string. -/
def escape (c : Char) : Text :=
  if c = '"' then ['\\', '"']
  else if c = '\\' then ['\\', '\\']
  else if c = '\n' then ['\\', 'n']
  else if c = '\r' then ['\\', 'r']
  else if c = '\t' then ['\\', 't']
  else if c = '\x08' then ['\\', 'b']
  else if c = '\x0c' then ['\\', 'f']
  else if 32 ≤ c.toNat && c.toNat < 127 then [c]
  else if c.toNat < 0x10000 then unitEscape c.toNat
  else
    let n := c.toNat - 0x10000
    unitEscape (0xd800 + n / 0x400) ++ unitEscape (0xdc00 + n % 0x400)

/-- A string between quotation marks. -/
def string (t : Text) : Text := '"' :: t.flatMap escape ++ ['"']

/-- A number; what is not finite has a name. -/
def number (n : Number) : Text :=
  match n.extent with
  | .nan => "NaN"
  | .infinite negative => if negative then "-Infinity" else "Infinity"
  | .ratio _ _ => n.text

/-- How the parts of an array or object are set out. -/
structure Layout where
  /-- What stands before the parts, between two of them and after them, at a given depth. -/
  first : Nat → Text
  between : Nat → Text
  last : Nat → Text

/-- All on one line. -/
def Layout.line : Layout := ⟨fun _ => [], fun _ => ", ", fun _ => []⟩

/-- Each part on a line of its own, indented by two blanks for each level. -/
def Layout.block : Layout where
  first d := '\n' :: Text.copies (2 * (d + 1)) ' '
  between d := ',' :: '\n' :: Text.copies (2 * (d + 1)) ' '
  last d := '\n' :: Text.copies (2 * d) ' '

mutual

/-- A value at the given depth. -/
def write (l : Layout) (depth : Nat) : Json → Text
  | .null => "null"
  | .bool b => if b then "true" else "false"
  | .num n => number n
  | .str t => string t
  | .arr [] => "[]"
  | .arr (v :: vs) =>
    '[' :: l.first depth ++ write l (depth + 1) v ++ writeItems l depth vs ++ l.last depth ++ [']']
  | .obj [] => ['{', '}']
  | .obj ((k, v) :: fs) =>
    '{' :: l.first depth ++ string k ++ ": ".toList ++ write l (depth + 1) v ++
      writeFields l depth fs ++ l.last depth ++ ['}']

/-- The items after the first one. -/
def writeItems (l : Layout) (depth : Nat) : List Json → Text
  | [] => []
  | v :: vs => l.between depth ++ write l (depth + 1) v ++ writeItems l depth vs

/-- The fields after the first one. -/
def writeFields (l : Layout) (depth : Nat) : List (Text × Json) → Text
  | [] => []
  | (k, v) :: fs =>
    l.between depth ++ string k ++ ": ".toList ++ write l (depth + 1) v ++ writeFields l depth fs

end

/-- A value on one line. -/
def compact (v : Json) : Text := write .line 0 v

/-- A value on indented lines. -/
def indented (v : Json) : Text := write .block 0 v

end ScriptAudit.Json
