import ScriptAudit.Yaml.Cursor

/-!
# Block scalars

A block scalar is made of the more deeply indented lines after its header. A literal one keeps its
line breaks, a folded one joins its lines; the header says what becomes of the line breaks at the
end and may fix the indentation.
-/

namespace ScriptAudit.Yaml.BlockScalar

/-- What becomes of the line breaks at the end. -/
inductive Chomping
  /-- None is kept. -/
  | strip
  /-- One is kept. -/
  | clip
  /-- All are kept. -/
  | keep

/-- The header of a block scalar. -/
structure Header where
  chomping : Chomping := .clip
  increment : Option Nat := none

/-- The chomping that a character stands for. -/
def chomping? : Char → Option Chomping
  | '+' => some .keep
  | '-' => some .strip
  | _ => none

/-- Reads the marks after the indicator; an indentation of zero is refused. -/
def header? (c : Cursor) : Option (Header × Cursor) :=
  let digit (c : Cursor) : Option (Option Nat × Cursor) :=
    match c.rest.head? with
    | some d =>
      if d == '0' then none
      else if d.isDigit then some (some (d.toNat - 48), c.next)
      else some (none, c)
    | none => some (none, c)
  let chomp (c : Cursor) : Chomping × Cursor :=
    match c.rest.head?.bind chomping? with
    | some m => (m, c.next)
    | none => (.clip, c)
  match c.rest.head?.bind chomping? with
  | some m => do
    let (increment, c) ← digit c.next
    return ({ chomping := m, increment }, c)
  | none => do
    let (increment, c) ← digit c
    match increment with
    | none => return ({}, c)
    | some n =>
      let (m, c) := chomp c
      return ({ chomping := m, increment := some n }, c)

/-- Passes over blank lines and indentation. `indent` is zero while it is still to be found; then
the widest indentation is collected in `widest`. A tab in the indentation is refused. Gives the
line breaks passed and the widest indentation. -/
def breaks? (indent : Nat) :
    (fuel : Nat) → (widest : Nat) → (done : Text) → Cursor → Option (Text × Nat × Cursor)
  | 0, _, _, _ => none
  | fuel + 1, widest, done, c =>
    let run := (c.rest.takeWhile (· == ' ')).length
    let c := c.advance (if indent = 0 then run else min run (indent - c.column))
    let widest := max widest c.column
    if (indent = 0 || c.column < indent) && c.sees (· == '\t') then none
    else if c.sees isBreak then breaks? indent fuel widest (done ++ c.lineBreak) c.nextLine
    else some (done, widest, c)

/-- What has been read of a block scalar. -/
structure Progress where
  /-- The text so far. -/
  text : Text := []
  /-- The break after the last line. -/
  lineEnd : Text := []
  /-- The breaks of the blank lines after it. -/
  blankLines : Text := []
  /-- Whether the last line began with a blank. -/
  indented : Bool := false

/-- Reads the lines that are indented by `indent`. -/
def lines? (literal : Bool) (indent : Nat) :
    (fuel : Nat) → Progress → Cursor → Option (Progress × Cursor)
  | 0, _, _ => none
  | fuel + 1, p, c =>
    if c.column != indent || c.atEnd then some (p, c)
    else
      let blank := c.sees isBlank
      let joint : Text :=
        if !literal && p.lineEnd.head? == some '\n' && !p.indented && !blank then
          if p.blankLines.isEmpty then [' '] else []
        else p.lineEnd
      let line := c.rest.takeWhile fun x => !isBreak x
      let c := c.skipLine
      match breaks? indent (c.rest.length + 1) 0 [] c.nextLine with
      | none => none
      | some (blankLines, _, c') =>
        lines? literal indent fuel
          ⟨p.text ++ joint ++ p.blankLines ++ line, c.lineBreak, blankLines, blank⟩ c'

/-- The block scalar whose indicator is the next character, and the place after it. `outer` is the
indentation of the collection around it, if there is one. -/
def read? (literal : Bool) (outer : Option Nat) (c : Cursor) : Option (Text × Cursor) := do
  let (header, c) ← header? c.next
  let c := c.skipWhile isBlank
  let c := if c.sees (· == '#') then c.skipLine else c
  if !c.atLineEnd then none
  let c := c.nextLine
  let given := header.increment.map fun n => outer.getD 0 + n
  let (first, widest, c) ← breaks? (given.getD 0) (c.rest.length + 1) 0 [] c
  let least := match outer with
    | some n => n + 1
    | none => 1
  let indent := given.getD (max widest (max least 1))
  let (p, c) ← lines? literal indent (c.rest.length + 1) { blankLines := first } c
  let ending : Text :=
    match header.chomping with
    | .strip => []
    | .clip => p.lineEnd
    | .keep => p.lineEnd ++ p.blankLines
  return (p.text ++ ending, c)

end ScriptAudit.Yaml.BlockScalar
