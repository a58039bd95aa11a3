/-!
# Text

Text is a list of code points. Every reader of this library recurses over such a list, and
every printer builds one, so that both sides of a law speak about the same thing.

`Text.contains` asks for an infix, `Text.cut?` splits at the first occurrence of a separator
and `Text.joinWith` writes a separator between parts.
-/

namespace ScriptAudit

/-- Text is a list of code points. -/
abbrev Text := List Char

instance : Coe String Text := ⟨String.toList⟩

namespace Text

/-- Whether `needle` occurs in the text. -/
def contains (needle : Text) : Text → Bool
  | [] => needle.isEmpty
  | c :: cs => needle.isPrefixOf (c :: cs) || contains needle cs

/-- The rest of the text after `start`, if the text starts with it. -/
def after? : (start : Text) → Text → Option Text
  | [], t => some t
  | _ :: _, [] => none
  | p :: ps, c :: cs => if p = c then after? ps cs else none

/-- The text before and after the first occurrence of `sep`. -/
def cut? (sep : Text) : Text → Option (Text × Text)
  | [] => if sep.isEmpty then some ([], []) else none
  | c :: cs =>
    match after? sep (c :: cs) with
    | some rest => some ([], rest)
    | none => (cut? sep cs).map fun (before, rest) => (c :: before, rest)

/-- The parts in order, with `sep` between neighbours. -/
def joinWith (sep : Text) : List Text → Text
  | [] => []
  | [t] => t
  | t :: ts => t ++ sep ++ joinWith sep ts

/-- The parts between the occurrences of the character `sep`; there is always at least one. -/
def splitAt (sep : Char) : Text → List Text
  | [] => [[]]
  | c :: cs =>
    if c = sep then [] :: splitAt sep cs
    else
      match splitAt sep cs with
      | [] => [[c]]
      | part :: parts => (c :: part) :: parts

/-- Whether the text ends in `suffix`. -/
def endsWith (suffix t : Text) : Bool := suffix.isSuffixOf t

/-- Every occurrence of `old`, from left to right, replaced by `new`. -/
def replaceAll (old new : Text) : Nat → Text → Text
  | _, [] => []
  | n + 1, _ :: cs => replaceAll old new n cs
  | 0, c :: cs =>
    if !old.isEmpty && old.isPrefixOf (c :: cs) then new ++ replaceAll old new (old.length - 1) cs
    else c :: replaceAll old new 0 cs

/-- `n` copies of a character. -/
abbrev copies (n : Nat) (c : Char) : Text := List.replicate n c

/-- The text, with blanks appended until it has at least `width` characters. -/
def padRight (width : Nat) (t : Text) : Text := t ++ copies (width - t.length) ' '

/-- The text, with blanks put in front until it has at least `width` characters. -/
def padLeft (width : Nat) (t : Text) : Text := copies (width - t.length) ' ' ++ t

/-- A natural number in decimal digits. -/
def ofNat (n : Nat) : Text := Nat.toDigits 10 n

/-- An integer in decimal digits, with a minus sign in front of a negative one. -/
def ofInt : Int → Text
  | .ofNat n => ofNat n
  | .negSucc n => '-' :: ofNat (n + 1)

/-- The text before the first occurrence of `sep`; the whole text when there is none. -/
def before (sep t : Text) : Text := ((cut? sep t).map Prod.fst).getD t

/-- Lexicographic order by code point. -/
def precedes : Text → Text → Bool
  | [], [] => false
  | [], _ :: _ => true
  | _ :: _, [] => false
  | a :: as, b :: bs => a.val < b.val || (a.val == b.val && precedes as bs)

end Text

end ScriptAudit
