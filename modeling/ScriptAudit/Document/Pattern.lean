import ScriptAudit.Document.Identifier

/-!
# Substitution patterns

A pattern is an opening brace, a mark, an identifier and a closing brace. `Pattern.ofLine` finds
the patterns of a line from left to right; an opening without a closing brace after it is the last
one.
-/

namespace ScriptAudit

/-- How the value of a pattern is written in its place. -/
inductive Substitution
  /-- Between apostrophes. -/
  | single
  /-- Between double quotes. -/
  | double
  /-- As it is. -/
  | bare
  deriving DecidableEq

namespace Substitution

/-- The substitution that a mark stands for. -/
def ofMark? : Char → Option Substitution
  | '#' => some single
  | '%' => some double
  | '$' => some bare
  | _ => none

/-- The mark of a substitution. -/
def mark : Substitution → Char
  | single => '#'
  | double => '%'
  | bare => '$'

/-- The name of a substitution. -/
def name : Substitution → Text
  | single => "utilReference"
  | double => "dataSubstitution"
  | bare => "envVariable"

end Substitution

/-- What is wrong with a pattern. -/
inductive PatternProblem
  /-- There is no identifier. -/
  | empty
  /-- The identifier is not well formed. -/
  | ill
  /-- There is no closing brace. -/
  | unclosed
  deriving DecidableEq

/-- The name of a problem. -/
def PatternProblem.name : PatternProblem → Text
  | empty => "empty"
  | ill => "syntax"
  | unclosed => "unclosed"

/-- A pattern as it occurs on a line. -/
structure Pattern where
  substitution : Substitution
  identifier : Text
  line : Nat
  problem : Option PatternProblem
  deriving DecidableEq

namespace Pattern

/-- The text of a pattern. -/
def text (p : Pattern) : Text :=
  '{' :: p.substitution.mark :: p.identifier ++ (if p.problem = some .unclosed then [] else ['}'])

/-- Whether nothing is wrong with a pattern. -/
def isValid (p : Pattern) : Bool := p.problem.isNone

/-- What is wrong with an identifier between braces. -/
def problemOf (identifier : Text) : Option PatternProblem :=
  if Text.blank identifier then some .empty
  else if Identifier.isValid identifier then none
  else some .ill

/-- The substitution whose opening stands at the front of the text. -/
def opening? : Text → Option Substitution
  | '{' :: m :: _ => Substitution.ofMark? m
  | _ => none

/-- The patterns of a text; `skip` characters belong to the last one. -/
def scan (line : Nat) : (skip : Nat) → Text → List Pattern
  | _, [] => []
  | n + 1, _ :: cs => scan line n cs
  | 0, c :: cs =>
    match opening? (c :: cs) with
    | none => scan line 0 cs
    | some s =>
      let identifier := (cs.drop 1).takeWhile (· ≠ '}')
      if identifier.length + 1 < cs.length then
        ⟨s, identifier, line, problemOf identifier⟩ :: scan line (identifier.length + 2) cs
      else [⟨s, identifier, line, some .unclosed⟩]

/-- The patterns of a line, from left to right. -/
def ofLine (line : Nat) (t : Text) : List Pattern := scan line 0 t

/-- The patterns of numbered lines. -/
def ofLines (lines : List Text) : List Pattern :=
  (lines.mapIdx fun i t => ofLine (i + 1) t).flatten

end Pattern

end ScriptAudit
