import ScriptAudit.Text.Basic

/-!
# Finding things in text

A `Recogniser` is asked at one position: it sees the character before the position and the text
from there on, and answers what it found together with the number of characters it used up.
`search` gives what is found at the first position that has an answer, `occurrences` everything
that is found from left to right without overlap, and `replaced` puts something else in place of
every find. A recogniser is expected to use up at least one character.
-/

namespace ScriptAudit

/-- What is found at a position, given the character before it, and how much text it covers. -/
abbrev Recogniser (α : Type) := Option Char → Text → Option (α × Nat)

namespace Recogniser

variable {α : Type}

/-- What is found at the first position that has an answer. -/
def search (r : Recogniser α) : Option Char → Text → Option α
  | _, [] => none
  | before, c :: cs =>
    match r before (c :: cs) with
    | some (a, _) => some a
    | none => search r (some c) cs

/-- The finds from left to right; `skip` characters belong to the last one. -/
def collect (r : Recogniser α) : (skip : Nat) → Option Char → Text → List α
  | _, _, [] => []
  | n + 1, _, c :: cs => collect r n (some c) cs
  | 0, before, c :: cs =>
    match r before (c :: cs) with
    | some (a, n) => a :: collect r (n - 1) (some c) cs
    | none => collect r 0 (some c) cs

/-- All finds, from left to right, without overlap. -/
def occurrences (r : Recogniser α) (t : Text) : List α := collect r 0 none t

/-- The first find in a text. -/
def first? (r : Recogniser α) (t : Text) : Option α := search r none t

/-- Whether there is a find anywhere. -/
def found (r : Recogniser α) (t : Text) : Bool := (first? r t).isSome

/-- The text with each find replaced; `skip` characters belong to the last one. -/
def substitute (r : Recogniser Text) : (skip : Nat) → Option Char → Text → Text
  | _, _, [] => []
  | n + 1, _, c :: cs => substitute r n (some c) cs
  | 0, before, c :: cs =>
    match r before (c :: cs) with
    | some (new, n) => new ++ substitute r (n - 1) (some c) cs
    | none => c :: substitute r 0 (some c) cs

/-- The text with every find, from left to right, replaced by what the recogniser answers. -/
def replaced (r : Recogniser Text) (t : Text) : Text := substitute r 0 none t

end Recogniser

end ScriptAudit
