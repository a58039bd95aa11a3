import ScriptAudit.Document.Command

/-!
# Commands of code blocks

`Script.commands` reads the lines of a code block. Blank lines and comments are passed over. A
command may be followed by an object or an array, its body, which ends with the line on which the
brackets balance; without such a line there is no body, and reading goes on after the command.
-/

namespace ScriptAudit.Script

/-- Whether a line without margin is a comment. -/
def isComment (t : Text) : Bool := ['/', '/'].isPrefixOf t || ['-', '-'].isPrefixOf t

/-- Whether a line holds nothing to be read. -/
def isIdle (t : Text) : Bool := (Text.trim t).isEmpty || isComment (Text.trim t)

/-! ## Bodies -/

/-- Where a character stands in a line of a body. -/
inductive Place
  /-- Between strings. -/
  | outside
  /-- Inside a string. -/
  | inside
  /-- Inside a string, after a backslash. -/
  | escaped

/-- The number of opened brackets less that of closed ones, outside of strings. -/
def balance : Place → Text → Int
  | _, [] => 0
  | .escaped, _ :: cs => balance .inside cs
  | .inside, c :: cs =>
    if c = '\\' then balance .escaped cs
    else if c = '"' then balance .outside cs
    else balance .inside cs
  | .outside, c :: cs =>
    if c = '"' then balance .inside cs
    else if c = '{' || c = '[' then balance .outside cs + 1
    else if c = '}' || c = ']' then balance .outside cs - 1
    else balance .outside cs

/-- The lines up to the one on which the brackets balance. -/
def balanced? : (depth : Int) → List Text → Option (List Text)
  | _, [] => none
  | depth, l :: ls =>
    let depth := depth + balance .outside l
    if depth ≤ 0 then some [l] else (balanced? depth ls).map (l :: ·)

/-- The lines of the body that the lines after a command begin with, and the number of lines
passed over before it. -/
def body? (lines : List Text) : Option (Nat × List Text) :=
  let idle := lines.takeWhile isIdle
  let rest := lines.drop idle.length
  match rest with
  | [] => none
  | l :: _ =>
    match Text.trim l with
    | '{' :: _ => (balanced? 0 rest).map fun ls => (idle.length, ls)
    | '[' :: _ => (balanced? 0 rest).map fun ls => (idle.length, ls)
    | _ => none

/-! ## Commands -/

/-- The commands of numbered lines; `skip` lines belong to the last one. -/
def commandsFrom : (skip : Nat) → List (Nat × Text) → List Command
  | _, [] => []
  | n + 1, _ :: ls => commandsFrom n ls
  | 0, (number, l) :: ls =>
    let t := Text.trim l
    if isIdle l then commandsFrom 0 ls
    else
      match Command.ofLine? t number with
      | none => commandsFrom 0 ls
      | some c =>
        match body? (ls.map Prod.snd) with
        | none => c :: commandsFrom 0 ls
        | some (idle, body) =>
          { c with body := some (Text.joinWith ['\n'] body) } ::
            commandsFrom (idle + body.length) ls

/-- The commands of a code block. -/
def commands (b : CodeBlock) : List Command := commandsFrom 0 b.lines

end ScriptAudit.Script
