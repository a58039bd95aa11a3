import ScriptAudit.Text.Line
import ScriptAudit.Text.Case

/-!
# Headings and code blocks

Of Markdown only headings and fenced code blocks matter. `Role.ofLines` says for each line whether
it opens or closes a fence, stands inside a block or belongs to the running text. `codeBlocks` and
`headings` collect what they need from the lines with their roles: a heading is marked by number
signs in front, or by a line of dashes or equals signs below its paragraph.
-/

namespace ScriptAudit

/-! ## Fences -/

/-- A fence that opens a code block: its marks and the word after them. -/
structure Fence where
  marks : Text
  info : Text

namespace Fence

/-- The part of a line after at most three spaces. -/
def afterIndent? (line : Text) : Option Text :=
  let n := Text.spaces line
  if n ≤ 3 then some (line.drop n) else none

/-- The fence that a line opens: at least three backquotes or tildes. -/
def ofLine? (line : Text) : Option Fence := do
  let t ← afterIndent? line
  let mark ← t.head?
  if mark ≠ '\x60' ∧ mark ≠ '~' then none
  let marks := t.takeWhile (· == mark)
  if marks.length < 3 then none
  let rest := Text.trimLeft (t.drop marks.length)
  return ⟨marks, rest.takeWhile fun c => !isBlank c && c ≠ '\x60'⟩

/-- Whether a line closes a block that was opened by the given marks. -/
def closes (marks : Text) (line : Text) : Bool :=
  let t := Text.trim line
  marks.isPrefixOf t && t.all (some · == marks.head?) && Text.spaces line ≤ 3

/-- The words after a fence whose block holds commands. -/
def scriptWords : List Text := [[], ['c', 's'], ['t', 'a', 'r'], "script".toList]

/-- Whether the block of this fence holds commands. -/
def opensScript (f : Fence) : Bool := scriptWords.elem (Text.lower f.info)

end Fence

/-! ## Roles of lines -/

/-- What a line is. -/
inductive Role
  /-- The line opens a code block. -/
  | opens (fence : Fence)
  /-- The line stands in a code block. -/
  | code
  /-- The line closes a code block. -/
  | closes
  /-- The line stands in the running text. -/
  | prose

/-- The roles of lines after the given open fence. -/
def Role.ofLines : (fence : Option Text) → List Text → List Role
  | _, [] => []
  | some marks, l :: ls =>
    if Fence.closes marks l then .closes :: ofLines none ls else .code :: ofLines (some marks) ls
  | none, l :: ls =>
    match Fence.ofLine? l with
    | some f => .opens f :: ofLines (some f.marks) ls
    | none => .prose :: ofLines none ls

/-- A line of a document with its number and its role. -/
structure Line where
  number : Nat
  text : Text
  role : Role

/-- The lines after the first `start` ones, with their roles. -/
def Line.ofLines (start : Nat) (lines : List Text) : List Line :=
  let body := lines.drop start
  (body.zip (Role.ofLines none body)).mapIdx fun i (t, r) => ⟨start + 1 + i, t, r⟩

/-! ## Code blocks -/

/-- A code block: the word after its fence and its numbered lines. -/
structure CodeBlock where
  fence : Fence
  lines : List (Nat × Text)

/-- The lines of the block that is open before the first line, and the blocks that follow. -/
def splitBlocks : List Line → List (Nat × Text) × List CodeBlock
  | [] => ([], [])
  | l :: ls =>
    let (code, blocks) := splitBlocks ls
    match l.role with
    | .opens f => ([], ⟨f, code⟩ :: blocks)
    | .code => ((l.number, l.text) :: code, blocks)
    | .closes => ([], blocks)
    | .prose => ([], blocks)

/-- The code blocks among the lines. -/
def codeBlocks (lines : List Line) : List CodeBlock := (splitBlocks lines).2

/-- The code blocks that hold commands. -/
def scriptBlocks (lines : List Line) : List CodeBlock :=
  (codeBlocks lines).filter (·.fence.opensScript)

/-! ## Headings -/

/-- Space and tab. -/
def isGap (c : Char) : Bool := c == ' ' || c == '\t'

/-- Whether nothing is left of a heading but number signs set off by blanks. -/
def endsHeading (t : Text) : Bool :=
  let rest := t.dropWhile isGap
  rest.isEmpty ||
    (rest.length < t.length && rest.head? == some '#' && (rest.dropWhile (· == '#')).all isGap)

/-- The text of a heading, without the number signs that may end it. -/
def headingText : Text → Text
  | [] => []
  | c :: cs => if endsHeading (c :: cs) then [] else c :: headingText cs

/-- The text of the heading that a line with one to six number signs in front is. -/
def markedHeading? (line : Text) : Option Text := do
  let t ← Fence.afterIndent? line
  let signs := t.takeWhile (· == '#')
  if signs.isEmpty || signs.length > 6 then none
  match t.drop signs.length with
  | [] => return []
  | c :: rest =>
    if isGap c then return Text.trim (headingText (rest.dropWhile isGap)) else none

/-- Whether a line makes a heading of the paragraph above it. -/
def isUnderline (line : Text) : Bool :=
  match Fence.afterIndent? line with
  | some (c :: t) =>
    (c == '=' || c == '-') && ((t.dropWhile (· == c)).all isGap)
  | _ => false

/-- A heading and the number of its first line. -/
structure Heading where
  line : Nat
  text : Text
  deriving DecidableEq

/-- The headings among the lines; `paragraph` holds the lines of the paragraph under way, last one
first. -/
def headingsFrom : (paragraph : List (Nat × Text)) → List Line → List Heading
  | _, [] => []
  | paragraph, l :: ls =>
    match l.role with
    | .opens _ => headingsFrom [] ls
    | .code => headingsFrom paragraph ls
    | .closes => headingsFrom paragraph ls
    | .prose =>
      match markedHeading? l.text with
      | some t => ⟨l.number, t⟩ :: headingsFrom [] ls
      | none =>
        match paragraph.reverse with
        | first :: more =>
          if isUnderline l.text then
            ⟨first.1, Text.joinWith [' '] ((first :: more).map fun p => Text.trim p.2)⟩ ::
              headingsFrom [] ls
          else if Text.blank l.text then headingsFrom [] ls
          else headingsFrom ((l.number, l.text) :: paragraph) ls
        | [] =>
          if Text.blank l.text then headingsFrom [] ls
          else headingsFrom ((l.number, l.text) :: paragraph) ls

/-- The headings among the lines, in order. -/
def headings (lines : List Line) : List Heading := headingsFrom [] lines

end ScriptAudit
