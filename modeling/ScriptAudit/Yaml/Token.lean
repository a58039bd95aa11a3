import ScriptAudit.Text.Basic

/-!
# Tokens of a YAML text

The tokens stand for the structure of the text: indentation has already become the start and the
end of block collections, and a key that is recognised by the colon after it is marked by a `key`
token in front of it.
-/

namespace ScriptAudit.Yaml

/-- How a scalar is written. -/
inductive Style
  /-- Without quotation marks; its type is found from its text. -/
  | plain
  /-- Between quotation marks, or as a block of lines. -/
  | quoted

/-- A piece of the structure of a YAML text. -/
inductive Token
  /-- The version of the language that a document is written in. -/
  | version (major minor : Nat)
  /-- An abbreviation for the beginnings of tags. -/
  | abbreviation (handle meaning : Text)
  /-- The marker before a document. -/
  | documentStart
  /-- The marker after a document. -/
  | documentEnd
  /-- A more deeply indented entry begins a sequence. -/
  | blockSequence
  /-- A more deeply indented key begins a mapping. -/
  | blockMapping
  /-- A block collection ends. -/
  | blockEnd
  /-- An opening square bracket. -/
  | openBracket
  /-- A closing square bracket. -/
  | closeBracket
  /-- An opening brace. -/
  | openBrace
  /-- A closing brace. -/
  | closeBrace
  /-- The dash before an entry. -/
  | entry
  /-- The comma between items. -/
  | comma
  /-- A key follows. -/
  | key
  /-- A value follows. -/
  | value
  /-- A reference to an anchor. -/
  | alias (name : Text)
  /-- A name for the node that follows. -/
  | anchor (name : Text)
  /-- The type of the node that follows. -/
  | tag (handle suffix : Text)
  /-- A scalar. -/
  | scalar (value : Text) (style : Style)

end ScriptAudit.Yaml
