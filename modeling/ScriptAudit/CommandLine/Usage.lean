import ScriptAudit.CommandLine.Grammar
import ScriptAudit.Text.Fill
import ScriptAudit.Text.Case

/-!
# Usage and help

`Level.usage` shows in short what may be written at a level of the command line, and `Level.help`
describes it in full.
-/

namespace ScriptAudit.CommandLine

/-- The width of a line. -/
def width : Nat := 78

/-- The column in which descriptions begin. -/
def descriptionColumn : Nat := 24

/-- Texts to choose from. -/
def choiceText (choices : List Text) : Text := ['\x7b'] ++ Text.joinWith [','] choices ++ ['\x7d']

/-- A text that may be left out. -/
def bracketed (t : Text) : Text := ['['] ++ t ++ [']']

namespace Parameter

/-- What stands for the text that follows a parameter: its first long name in capital letters. -/
def placeholder (p : Parameter) : Text :=
  let name := (p.names.find? fun n => "--".toList.isPrefixOf n).getD []
  Text.upper ((name.drop 2).map fun c => if c = '-' then '_' else c)

/-- What follows a parameter. -/
def argumentText (p : Parameter) : Text :=
  match p.expects with
  | .nothing | .help => []
  | .word | .number => ' ' :: p.placeholder
  | .oneOf choices => ' ' :: choiceText choices
  | .words => ' ' :: bracketed (p.placeholder ++ " ...".toList)

/-- A parameter in a usage. -/
def usage (p : Parameter) : Text := bracketed (p.names.headD [] ++ p.argumentText)

/-- A parameter in a list of parameters. -/
def heading (p : Parameter) : Text :=
  Text.joinWith ", " (p.names.map (· ++ p.argumentText))

end Parameter

namespace Operand

/-- The parts of an operand in a usage. -/
def usage : Operand → List Text
  | one name _ => [name]
  | command commands => [choiceText (commands.map Prod.fst), "..."]

end Operand

/-- The lines that describe something: its heading, and its description where there is one. -/
def described (indent : Nat) (heading : Text) (summary : Option Text) : List Text :=
  let start := Text.copies indent ' ' ++ heading
  match (summary.map (Text.fill (width - descriptionColumn))).getD [] with
  | [] => [start]
  | first :: rest =>
    let margin := Text.copies descriptionColumn ' '
    let top :=
      if start.length + 2 ≤ descriptionColumn then [Text.padRight descriptionColumn start ++ first]
      else [start, margin ++ first]
    top ++ rest.map (margin ++ ·)

/-- The lines that describe an operand. -/
def Operand.description : Operand → List Text
  | one name summary => described 2 name (some summary)
  | command commands =>
    described 2 (choiceText (commands.map Prod.fst)) none ++
      commands.flatMap fun (name, summary) => described 4 name (some summary)

namespace Level

/-- What stands before the usage. -/
def usageMark : Text := "usage: "

/-- The usage: on one line, or with parameters and operands on lines of their own. -/
def usage (l : Level) : Text :=
  let parameters := l.parameters.map Parameter.usage
  let operands := (l.operand.map Operand.usage).getD []
  let whole := usageMark ++ Text.joinWith [' '] (l.title :: parameters ++ operands)
  if whole.length ≤ width then whole
  else
    let margin := usageMark.length + l.title.length + 1
    let upper := (Text.gather width usageMark.length margin (l.title :: parameters)).map
      (Text.joinWith [' '])
    let lower := (Text.gather width margin margin operands).map (Text.joinWith [' '])
    usageMark ++ Text.joinWith ('\n' :: Text.copies margin ' ') (upper ++ lower)

/-- The description of all that may be written. -/
def help (l : Level) : Text :=
  let list (title : String) (lines : List Text) : List Text :=
    if lines.isEmpty then [] else [Text.joinWith ['\n'] (title.toList :: lines)]
  Text.joinWith "\n\n"
    ([l.usage] ++ l.summary.toList ++
      list "positional arguments:" ((l.operand.map Operand.description).getD []) ++
      list "options:" (l.parameters.flatMap fun p => described 2 p.heading p.summary)) ++ ['\n']

end Level

end ScriptAudit.CommandLine
