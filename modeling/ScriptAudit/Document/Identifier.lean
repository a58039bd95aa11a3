import ScriptAudit.Text.Line

/-!
# Identifiers

What stands between the braces of a substitution pattern is an identifier: names with dots, each
of which may be called with simple arguments, as in `order.Items(0).Name`. `Identifier.isValid`
decides this in one pass from left to right, `Identifier.usedName?` finds the leading name of a
usage whose further names may be calls with any arguments.
-/

namespace ScriptAudit.Identifier

/-! ## Well-formed identifiers -/

/-- The characters of dotted names. -/
def isNameChar (c : Char) : Bool := isWord c || c == '.'

/-- The characters of arguments. -/
def isArgumentChar (c : Char) : Bool :=
  isWord c || c == ',' || isBlank c || c == '"' || c == '\''

mutual

/-- What may follow a character of a name. -/
def afterName : Text → Bool
  | [] => true
  | '(' :: t => inCall t
  | c :: t => isNameChar c && afterName t

/-- What may follow an opening parenthesis. -/
def inCall : Text → Bool
  | [] => false
  | ')' :: t => afterCall t
  | c :: t => isArgumentChar c && inCall t

/-- What may follow a closing parenthesis: nothing, or a dot and a name. -/
def afterCall : Text → Bool
  | [] => true
  | '.' :: c :: t => isNameChar c && afterName t
  | _ => false

end

/-- Whether a text is a well-formed identifier, apart from blanks around it. -/
def isValid (t : Text) : Bool :=
  match Text.trim t with
  | c :: t => isNameChar c && afterName t
  | [] => false

/-! ## Usages of variables -/

mutual

/-- Dotted names, each with arguments in parentheses or without. -/
def members : Text → Bool
  | [] => true
  | '.' :: c :: t => isWord c && member t
  | _ => false

/-- What may follow a character of a member's name. -/
def member : Text → Bool
  | [] => true
  | '(' :: t => arguments t
  | '.' :: c :: t => isWord c && member t
  | c :: t => isWord c && member t

/-- What may follow an opening parenthesis: anything but parentheses up to a closing one. -/
def arguments : Text → Bool
  | [] => false
  | ')' :: t => members t
  | c :: t => c != '(' && arguments t

end

/-- The name of the variable that an identifier uses: a word, followed by members only. -/
def usedName? (t : Text) : Option Text :=
  let t := Text.trim t
  let name := t.takeWhile isWord
  if !name.isEmpty && members (t.drop name.length) then some name else none

end ScriptAudit.Identifier
