import ScriptAudit.Yaml.Timestamp

/-!
# Types of YAML nodes

A `Tag` is the type of a node. The type of a plain scalar is found from its text by
`Tag.ofPlain`: numbers, truth values, dates and the like each have a form, and everything else is
a string.
-/

namespace ScriptAudit.Yaml

/-- The types that are known, and all others together. -/
inductive Tag
  | null
  | bool
  | int
  | float
  | binary
  | timestamp
  | omap
  | pairs
  | set
  | str
  | seq
  | map
  /-- The key `<<`, which merges mappings into another one. -/
  | merge
  /-- The key `=`, which stands for the value of a mapping as a whole. -/
  | value
  /-- A type that is not known. -/
  | other
  deriving DecidableEq

namespace Tag

/-- The beginning of the tags of all known types. -/
def stem : Text := "tag:yaml.org,2002:"

/-- The names of the known types. -/
def names : List (Text × Tag) :=
  [("null", null), ("bool", bool), ("int", int), ("float", float), ("binary", binary),
    ("timestamp", timestamp), ("omap", omap), ("pairs", pairs), ("set", set), ("str", str),
    ("seq", seq), ("map", map), ("merge", merge), ("value", value)]

/-- The type that a complete tag names. -/
def ofText (t : Text) : Tag :=
  match Text.after? stem t with
  | some name => (names.lookup name).getD other
  | none => other

/-! ## Forms of plain scalars -/

/-- Digits and underscores. -/
def isGroup (c : Char) : Bool := c.isDigit || c == '_'

/-- The rest after digits, of which all but the first may be underscores. -/
def digitGroup? : Text → Option Text
  | c :: t => if c.isDigit then some (t.dropWhile isGroup) else none
  | [] => none

/-- The text without a sign in front. -/
def unsigned : Text → Text
  | '+' :: t => t
  | '-' :: t => t
  | t => t

/-- Whether a part between colons is a number below sixty. -/
def isSixtieth : Text → Bool
  | [c] => c.isDigit
  | [c, d] => '0' ≤ c && c ≤ '5' && d.isDigit
  | _ => false

/-- Whether a text is a number in base sixty: digits, then parts below sixty, each after a colon. -/
def isSexagesimal (first : Char → Bool) (t : Text) : Bool :=
  match Text.splitAt ':' t with
  | (c :: whole) :: part :: parts => first c && whole.all isGroup && (part :: parts).all isSixtieth
  | _ => false

/-- An integer: binary, octal, decimal, hexadecimal or in base sixty. -/
def isInt (t : Text) : Bool :=
  match unsigned t with
  | ['0'] => true
  | '0' :: 'b' :: c :: t => (c :: t).all fun c => c == '0' || c == '1' || c == '_'
  | '0' :: 'x' :: c :: t => (c :: t).all fun c =>
      c.isDigit || ('a' ≤ c && c ≤ 'f') || ('A' ≤ c && c ≤ 'F') || c == '_'
  | '0' :: t => t.all fun c => ('0' ≤ c && c ≤ '7') || c == '_'
  | t => (t.head?.any Char.isDigit && t.all isGroup) || isSexagesimal (fun c => c.isDigit) t

/-- An exponent with its sign, or nothing. -/
def isExponent : Text → Bool
  | [] => true
  | e :: s :: d :: t =>
    (e == 'e' || e == 'E') && (s == '+' || s == '-') && (d :: t).all Char.isDigit
  | _ => false

/-- A decimal fraction, an infinity, or what is not a number. -/
def isFloat (t : Text) : Bool :=
  let u := unsigned t
  -- digits before the point
  (match digitGroup? u with
    | some ('.' :: rest) => isExponent (rest.dropWhile isGroup)
    | _ => false) ||
  -- digits after the point only
  (match t with
    | '.' :: rest => (digitGroup? rest).any isExponent
    | _ => false) ||
  -- base sixty
  (match Text.cut? ['.'] u with
    | some (whole, rest) => isSexagesimal (fun c => c.isDigit) whole && rest.all isGroup
    | none => false) ||
  [".inf", ".Inf", ".INF"].elem (String.ofList u) || [".nan", ".NaN", ".NAN"].elem (String.ofList t)

/-- A truth value, in lower or upper case or with a capital letter. -/
def isBool (t : Text) : Bool :=
  ["yes", "Yes", "YES", "no", "No", "NO", "true", "True", "TRUE", "false", "False", "FALSE",
    "on", "On", "ON", "off", "Off", "OFF"].elem (String.ofList t)

/-- Nothing. -/
def isNull (t : Text) : Bool := ["", "~", "null", "Null", "NULL"].elem (String.ofList t)

/-- The type of a plain scalar. -/
def ofPlain (t : Text) : Tag :=
  -- a line feed after other characters does not count
  let t := if t.length > 1 && t.getLast? == some '\n' then t.dropLast else t
  if isBool t then bool
  else if isFloat t then float
  else if isInt t then int
  else if t == ['<', '<'] then merge
  else if isNull t then null
  else if Timestamp.isPlain t then timestamp
  else if t == ['='] then value
  else str

end Tag

end ScriptAudit.Yaml
