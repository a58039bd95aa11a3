import ScriptAudit.Yaml.Cursor
import ScriptAudit.Text.Utf8
import ScriptAudit.Yaml.Token.Quoted

/-!
# Written tags and directives

A tag is written `!suffix`, `!handle!suffix` or `!<whole tag>`; bytes may be given in it by a
percent sign and two hexadecimal digits. The directives at the head of a document name the version
of the language and abbreviate beginnings of tags.
-/

namespace ScriptAudit.Yaml.WrittenTag

/-- The characters of a tag; `whole` admits those that structure a flow collection. -/
def isTagChar (whole : Bool) (c : Char) : Bool :=
  isNameChar c || ";/?:@&=+$.%!~*'()".toList.elem c || (whole && ",[]".toList.elem c)

/-- Puts the characters in place of the bytes that are given by percent signs. -/
def unescape? : Text → Option Text
  | t =>
    match octets t with
    | some bytes => (Utf8.decode bytes).toOption
    | none => none
where
  /-- The bytes of a tag. -/
  octets : Text → Option Bytes
    | '%' :: a :: b :: t => do
      let hi ← QuotedScalar.hexDigit? a
      let lo ← QuotedScalar.hexDigit? b
      return UInt8.ofNat (16 * hi + lo) :: (← octets t)
    | '%' :: _ => none
    | c :: t => do return Utf8.encode [c] ++ (← octets t)
    | [] => some []

/-- The characters of a tag from here on, and the place after them. -/
def characters? (whole : Bool) (c : Cursor) : Option (Text × Cursor) :=
  let run := c.rest.takeWhile (isTagChar whole)
  (unescape? run).map fun t => (t, c.advance run.length)

/-- The handle that begins here: an exclamation mark, a name and, where there is one, a second
exclamation mark. -/
def handle (c : Cursor) : Text × Cursor :=
  let name := (c.rest.drop 1).takeWhile isNameChar
  let closed := c.at? (name.length + 1) (· == '!')
  let text := '!' :: name ++ (if closed then ['!'] else [])
  (text, c.advance text.length)

/-- The handle and the suffix of the tag that begins here, and the place after it. -/
def read? (flow : Bool) (c : Cursor) : Option (Text × Text × Cursor) := do
  let (h, s, c) ←
    if c.at? 1 (· == '<') then do
      let (s, c) ← characters? true (c.advance 2)
      if s.isEmpty || !c.sees (· == '>') then none else pure ([], s, c.next)
    else
      let (h, c') := handle c
      if h.length > 1 && h.getLast? == some '!' then do
        let (s, c) ← characters? false c'
        if s.isEmpty then none else pure (h, s, c)
      else do
        let (s, c) ← characters? false c'
        let s := h.drop 1 ++ s
        pure (if s.isEmpty then ([], ['!'], c) else (['!'], s, c))
  if (flow && c.sees (· == ',')) || c.spaceAt 0 then return (h, s, c) else none

/-! ## Directives -/

/-- A number of at most nine digits. -/
def number? (c : Cursor) : Option (Nat × Cursor) :=
  let ds := c.rest.takeWhile Char.isDigit
  if ds.isEmpty || ds.length > 9 then none
  else some (ds.foldl (fun n d => 10 * n + (d.toNat - 48)) 0, c.advance ds.length)

/-- What a directive declares. -/
inductive Directive
  /-- The version of the language. -/
  | version (major minor : Nat)
  /-- What a handle stands for. -/
  | abbreviation (handle meaning : Text)

/-- The directive that begins here with a percent sign, and the place after its line. -/
def directive? (c : Cursor) : Option (Directive × Cursor) := do
  let c := c.next
  let name := c.rest.takeWhile isNameChar
  let c := c.advance name.length
  if name.isEmpty || !c.spaceAt 0 then none
  let c := c.skipWhile isBlank
  let (d, c) ←
    if name == "YAML".toList then do
      let (major, c) ← number? c
      if !c.sees (· == '.') then none
      let (minor, c) ← number? c.next
      pure (Directive.version major minor, c)
    else if name == "TAG".toList then do
      if !c.sees (· == '!') then none
      let (h, c) := handle c
      if h.length > 1 && h.getLast? != some '!' then none
      if !c.sees isBlank then none
      let (meaning, c) ← characters? true (c.skipWhile isBlank)
      if meaning.isEmpty || !c.spaceAt 0 then none
      pure (Directive.abbreviation h meaning, c)
    else none
  let c := c.skipWhile isBlank
  let c := if c.sees (· == '#') then c.skipLine else c
  if !c.atLineEnd then none
  return (d, c.nextLine)

end ScriptAudit.Yaml.WrittenTag
