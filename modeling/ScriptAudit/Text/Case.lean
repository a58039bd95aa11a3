import ScriptAudit.Text.Basic
import ScriptAudit.Text.CaseTables

/-!
# Letter case

`Text.lower` and `Text.upper` map a text to one case, letter by letter, with two exceptions: some
letters have a several-letter image, and a capital sigma at the end of a word becomes a final
sigma. `sameLetter` compares a letter with a plain lower-case letter without regard to case, and
`Text.afterKeyword?` reads a keyword in that way.
-/

namespace ScriptAudit

/-! ## Mapping letters -/

/-- The lower-case letters that a single letter stands for. -/
def lowerOf (c : Char) : Text :=
  if c.toNat < 128 then [c.toLower]
  else if c = 'İ' then ['i', '\u0307']
  else
    match Text.Tables.lowerRuns.findSome? (·.image? c.toNat) with
    | some n => [Char.ofNat n]
    | none => [c]

/-- The upper-case letters that a single letter stands for. -/
def upperOf (c : Char) : Text :=
  if c.toNat < 128 then [c.toUpper]
  else
    match Text.Tables.upperExpansions.lookup c.toNat with
    | some ns => ns.map Char.ofNat
    | none =>
      match Text.Tables.upperRuns.findSome? (·.image? c.toNat) with
      | some n => [Char.ofNat n]
      | none => [c]

/-- Characters that are passed over when the end of a word is looked for. -/
def isCaseIgnorable (c : Char) : Bool :=
  if c.toNat < 128 then c == '\'' || c == '.' || c == ':' || c == '^' || c == '\x60'
  else Text.Tables.caseIgnorable.has c.toNat

/-- Letters that have a case. -/
def isCased (c : Char) : Bool :=
  if c.toNat < 128 then c.isAlpha else Text.Tables.cased.has c.toNat

namespace Text

/-- Whether the first character that counts is a letter with a case. -/
def meetsLetter (t : Text) : Bool :=
  match t.dropWhile isCaseIgnorable with
  | [] => false
  | c :: _ => isCased c

/-- Maps each letter to lower case; `before` holds the characters already read, last one first. -/
def lowerFrom (before : Text) : Text → Text
  | [] => []
  | c :: cs =>
    (if c = 'Σ' then [if meetsLetter before && !meetsLetter cs then 'ς' else 'σ'] else lowerOf c)
      ++ lowerFrom (c :: before) cs

/-- The text in lower case. -/
def lower (t : Text) : Text := lowerFrom [] t

/-- The text in upper case. -/
def upper (t : Text) : Text := t.flatMap upperOf

end Text

/-! ## Comparing without regard to case -/

/-- The plain lower-case letter that a letter is taken for when case does not count: besides the
capital letters, the dotted and the dotless `i`, the long `s` and the sign for kelvin. -/
def foldLetter (c : Char) : Char :=
  if c.toNat < 128 then c.toLower
  else if c = 'İ' || c = 'ı' then 'i'
  else if c = 'ſ' then 's'
  else if c.toNat == 0x212a then 'k'
  else c

namespace Text

/-- The rest of the text after a keyword that is read without regard to case. -/
def afterKeyword? : (keyword : Text) → Text → Option Text
  | [], t => some t
  | _ :: _, [] => none
  | k :: ks, c :: cs => if foldLetter k = foldLetter c then afterKeyword? ks cs else none

end Text

end ScriptAudit
