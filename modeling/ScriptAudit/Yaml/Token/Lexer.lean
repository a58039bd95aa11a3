import ScriptAudit.Yaml.Token
import ScriptAudit.Yaml.Token.Plain
import ScriptAudit.Yaml.Token.Quoted
import ScriptAudit.Yaml.Token.Block
import ScriptAudit.Yaml.Token.Tag

/-!
# From text to tokens

The lexer keeps the indentations of the open block collections and, for every level of brackets,
the place of a token that will turn out to be a key if a colon follows it. When the colon comes,
the `key` token is put in front of that place. Such a key stands on one line and has at most 1024
characters.
-/

namespace ScriptAudit.Yaml

/-- A place where a key may begin. -/
structure Candidate where
  /-- Whether only a key may stand here. -/
  required : Bool
  /-- The number of tokens before it. -/
  position : Nat
  /-- Where it begins. -/
  place : Cursor

/-- The lexer between two tokens. -/
structure Lexer where
  cursor : Cursor
  /-- The tokens so far, in order. -/
  tokens : Array Token := #[]
  /-- The indentations of the open block collections, innermost first. -/
  indents : List Nat := []
  /-- The possible keys of the levels of brackets, innermost first; the last is outside them. -/
  candidates : List (Option Candidate) := [none]
  /-- Whether a key may begin here. -/
  keyAllowed : Bool := true

namespace Lexer

/-- Whether the lexer is inside brackets. -/
def inFlow (l : Lexer) : Bool := l.candidates.length > 1

/-- Adds a token at the end. -/
def emit (l : Lexer) (t : Token) : Lexer := { l with tokens := l.tokens.push t }

/-- Puts a token in front of those from `position` on. -/
def insert (l : Lexer) (position : Nat) (t : Token) : Lexer :=
  { l with
    tokens := l.tokens.extract 0 position ++ #[t] ++ l.tokens.extract position l.tokens.size }

/-- Moves on. -/
def goto (l : Lexer) (c : Cursor) : Lexer := { l with cursor := c }

/-- Sets whether a key may begin here. -/
def allowKey (l : Lexer) (b : Bool) : Lexer := { l with keyAllowed := b }

/-! ## Indentation -/

/-- Opens a block collection when the column lies further to the right than the current one. -/
def indent (l : Lexer) (column position : Nat) (t : Token) : Lexer :=
  if !l.inFlow && l.indents.head?.all (· < column) then
    { l.insert position t with indents := column :: l.indents }
  else l

/-- Closes the block collections that are indented by more than `column`; all of them when there
is none. -/
def dedent (l : Lexer) (column : Option Nat) : Lexer :=
  if l.inFlow then l
  else
    let closed := l.indents.takeWhile fun i => column.all (· < i)
    { l with
      indents := l.indents.drop closed.length
      tokens := l.tokens ++ (closed.map fun _ => Token.blockEnd).toArray }

/-! ## Possible keys -/

/-- Gives up the possible key of this level, which fails when only a key may stand there. -/
def dropCandidate? (l : Lexer) : Option Lexer :=
  match l.candidates with
  | some k :: ks => if k.required then none else some { l with candidates := none :: ks }
  | _ => some l

/-- Notes that a key may begin here. -/
def noteCandidate? (l : Lexer) : Option Lexer :=
  if !l.keyAllowed then some l
  else do
    let required := !l.inFlow && l.indents.head? == some l.cursor.column
    let l ← l.dropCandidate?
    return { l with candidates := some ⟨required, l.tokens.size, l.cursor⟩ :: l.candidates.drop 1 }

/-- Gives up the possible keys that have become too long. -/
def dropStale? (l : Lexer) : Option Lexer := do
  let stale (k : Candidate) : Bool :=
    k.place.line < l.cursor.line || k.place.index + 1024 < l.cursor.index
  let ks ← l.candidates.mapM fun
    | some k => if stale k then if k.required then none else some none else some (some k)
    | none => some none
  return { l with candidates := ks }

/-! ## Space between tokens -/

/-- Passes over blanks, comments and line breaks. A tab is passed over where no key may begin. -/
def skipSpace : (fuel : Nat) → Lexer → Lexer
  | 0, l => l
  | fuel + 1, l =>
    let atMark := l.cursor.index == 0 && l.cursor.sees (· == '\ufeff')
    let c := if atMark then l.cursor.next else l.cursor
    let c := c.skipWhile fun x => x == ' ' || (x == '\t' && (l.inFlow || !l.keyAllowed))
    let c := if c.sees (· == '#') then c.skipLine else c
    if c.sees isBreak then
      skipSpace fuel { l with cursor := c.nextLine, keyAllowed := l.keyAllowed || !l.inFlow }
    else l.goto c

/-! ## Tokens -/

/-- A mark of `n` characters that stands for a token. -/
def mark (l : Lexer) (n : Nat) (t : Token) : Lexer := (l.emit t).goto (l.cursor.advance n)

/-- The marker of the start or end of a document. -/
def documentMark? (l : Lexer) (t : Token) : Option Lexer := do
  let l ← (l.dedent none).dropCandidate?
  return (l.allowKey false).mark 3 t

/-- An opening bracket. -/
def openFlow? (l : Lexer) (t : Token) : Option Lexer := do
  let l ← l.noteCandidate?
  return ({ l with candidates := none :: l.candidates }.allowKey true).mark 1 t

/-- A closing bracket. -/
def closeFlow? (l : Lexer) (t : Token) : Option Lexer := do
  let l ← l.dropCandidate?
  let ks := if l.inFlow then l.candidates.drop 1 else l.candidates
  return ({ l with candidates := ks }.allowKey false).mark 1 t

/-- A comma between items. -/
def comma? (l : Lexer) : Option Lexer := do
  return ((← l.dropCandidate?).allowKey true).mark 1 .comma

/-- The dash before an entry. -/
def entry? (l : Lexer) : Option Lexer := do
  if !l.inFlow && !l.keyAllowed then none
  let l ← (l.indent l.cursor.column l.tokens.size .blockSequence).dropCandidate?
  return (l.allowKey true).mark 1 .entry

/-- The question mark before a key. -/
def key? (l : Lexer) : Option Lexer := do
  if !l.inFlow && !l.keyAllowed then none
  let l ← (l.indent l.cursor.column l.tokens.size .blockMapping).dropCandidate?
  return (l.allowKey (!l.inFlow)).mark 1 .key

/-- The colon before a value, which may turn what stands before it into a key. -/
def value? (l : Lexer) : Option Lexer := do
  match l.candidates with
  | some k :: ks =>
    let l := (l.insert k.position .key).indent k.place.column k.position .blockMapping
    return ({ l with candidates := none :: ks }.allowKey false).mark 1 .value
  | _ =>
    if !l.inFlow && !l.keyAllowed then none
    let l := l.indent l.cursor.column l.tokens.size .blockMapping
    return (l.allowKey (!l.inFlow)).mark 1 .value

/-- A reference to an anchor, or an anchor. -/
def anchor? (l : Lexer) (make : Text → Token) : Option Lexer := do
  let l ← l.noteCandidate?
  let name := (l.cursor.rest.drop 1).takeWhile isNameChar
  let c := l.cursor.advance (name.length + 1)
  if name.isEmpty || !(c.spaceAt 0 || c.sees fun x => "?:,]\x7d%@\x60".toList.elem x) then none
  else return ((l.allowKey false).emit (make name)).goto c

/-- A tag. -/
def tag? (l : Lexer) : Option Lexer := do
  let l ← l.noteCandidate?
  let (h, s, c) ← WrittenTag.read? l.inFlow l.cursor
  return ((l.allowKey false).emit (.tag h s)).goto c

/-- A directive. -/
def directive? (l : Lexer) : Option Lexer := do
  let l ← (l.dedent none).dropCandidate?
  let (d, c) ← WrittenTag.directive? l.cursor
  let t : Token :=
    match d with
    | .version major minor => .version major minor
    | .abbreviation h m => .abbreviation h m
  return ((l.allowKey false).emit t).goto c

/-- A block scalar. -/
def blockScalar? (l : Lexer) (literal : Bool) : Option Lexer := do
  let l ← l.dropCandidate?
  let (t, c) ← BlockScalar.read? literal l.indents.head? l.cursor
  return ((l.allowKey true).emit (.scalar t .quoted)).goto c

/-- A scalar between quotation marks. -/
def quotedScalar? (l : Lexer) (single : Bool) : Option Lexer := do
  let l ← l.noteCandidate?
  let (t, c) ← QuotedScalar.read? single l.cursor
  return ((l.allowKey false).emit (.scalar t .quoted)).goto c

/-- A plain scalar. -/
def plainScalar? (l : Lexer) : Option Lexer := do
  let l ← l.noteCandidate?
  let indent := match l.indents with
    | i :: _ => i + 1
    | [] => 0
  let s ← PlainScalar.read? l.inFlow indent l.cursor
  return ((l.allowKey s.broken).emit (.scalar s.value .plain)).goto s.after

/-- The characters that begin something other than a plain scalar. -/
def indicators : Text := "-?:,[]\x7b\x7d#&*!|>'\"%@\x60".toList

/-- Reads the token that begins with `x`. -/
def token? (l : Lexer) (x : Char) : Option Lexer :=
  let c := l.cursor
  if c.column == 0 && x == '%' then l.directive?
  else if c.marks '-' then l.documentMark? .documentStart
  else if c.marks '.' then l.documentMark? .documentEnd
  else if x == '[' then l.openFlow? .openBracket
  else if x == '\x7b' then l.openFlow? .openBrace
  else if x == ']' then l.closeFlow? .closeBracket
  else if x == '\x7d' then l.closeFlow? .closeBrace
  else if x == ',' then l.comma?
  else if x == '-' && c.spaceAt 1 then l.entry?
  else if x == '?' && (l.inFlow || c.spaceAt 1) then l.key?
  else if x == ':' && (l.inFlow || c.spaceAt 1) then l.value?
  else if x == '*' then l.anchor? .alias
  else if x == '&' then l.anchor? .anchor
  else if x == '!' then l.tag?
  else if x == '|' && !l.inFlow then l.blockScalar? true
  else if x == '>' && !l.inFlow then l.blockScalar? false
  else if x == '\'' then l.quotedScalar? true
  else if x == '"' then l.quotedScalar? false
  else if !(isBlank x || indicators.elem x) || (x == '-' && !c.at? 1 isBlank) ||
      (!l.inFlow && (x == '?' || x == ':') && !c.spaceAt 1) then l.plainScalar?
  else none

/-- Reads all tokens. -/
def run : (fuel : Nat) → Lexer → Option (Array Token)
  | 0, _ => none
  | fuel + 1, l => do
    let l ← (l.skipSpace (l.cursor.rest.length + 1)).dropStale?
    match l.cursor.rest with
    | [] =>
      -- the end of the text ends its last line
      let c := l.cursor
      let l := l.goto (if c.column == 0 then c else { c with column := 0, line := c.line + 1 })
      let l ← (l.dedent none).dropCandidate?
      return l.tokens
    | x :: _ => run fuel (← (l.dedent (some l.cursor.column)).token? x)

end Lexer

/-- The tokens of a text, or `none` when the text is no YAML. -/
def tokens? (t : Text) : Option (List Token) :=
  if t.all isAllowed then
    ((Lexer.mk (.start t) #[] [] [none] true).run (t.length + 2)).map Array.toList
  else none

end ScriptAudit.Yaml
