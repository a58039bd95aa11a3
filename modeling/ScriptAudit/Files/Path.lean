import ScriptAudit.Text.Basic

/-!
# Paths

A `Path` is a text taken apart at its slashes. `Path.text` writes it in its plain form, without
empty parts and without parts that stand for the directory itself; `Path.resolve` gives the parts
of the place that it leads to, going by names only. Main statement: a resolved path has no part that
leads upwards (`above_notMem_resolve`).
-/

namespace ScriptAudit

/-- A path. -/
structure Path where
  /-- The slashes in front: none for a path that starts at the current directory. -/
  root : Text
  /-- The names along the path. -/
  parts : List Text
  deriving DecidableEq

namespace Path

/-- The part that stands for the directory itself. -/
def here : Text := ['.']

/-- The part that stands for the directory above. -/
def above : Text := ['.', '.']

/-- Reads a path. Two slashes in front are kept apart from a single one, more than two are not. -/
def ofText (t : Text) : Path where
  root := match (t.takeWhile (· == '/')).length with
    | 0 => []
    | 2 => ['/', '/']
    | _ => ['/']
  parts := (Text.splitAt '/' t).filter fun p => !p.isEmpty && p != here

/-- Whether the path starts at the root. -/
def isAbsolute (p : Path) : Bool := !p.root.isEmpty

/-- The plain form of a path. -/
def text (p : Path) : Text :=
  if p.root.isEmpty && p.parts.isEmpty then here else p.root ++ Text.joinWith ['/'] p.parts

/-- Whether a text holds the character with the number zero, which no path may hold. -/
def hasNull (t : Text) : Bool := t.any (· == '\x00')

/-- The last name of a path; empty where there is none. -/
def name (p : Path) : Text := p.parts.getLast?.getD []

/-- The path that follows further names. -/
def join (p : Path) (names : List Text) : Path := { p with parts := p.parts ++ names }

/-- The part of a name from its last dot on, unless the dot comes first or last. -/
def suffixOf (name : Text) : Text :=
  let extension := (name.reverse.takeWhile (· ≠ '.')).reverse
  if extension.isEmpty || name.length ≤ extension.length + 1 then [] else '.' :: extension

/-- Follows one name, upwards or downwards. -/
def follow (place : List Text) (part : Text) : List Text :=
  if part = above then place.dropLast else place ++ [part]

/-- The names from the root to the place where the path leads, seen from a directory. -/
def resolve (current : List Text) (p : Path) : List Text :=
  p.parts.foldl follow (if p.isAbsolute then [] else current)

theorem above_notMem_follow {place : List Text} (h : above ∉ place) (part : Text) :
    above ∉ follow place part := by
  unfold follow
  split
  · exact fun m => h (List.dropLast_subset place m)
  · next hp => simp [h, Ne.symm hp]

/-- A resolved path leads downwards only. -/
theorem above_notMem_resolve {current : List Text} (h : above ∉ current) (p : Path) :
    above ∉ p.resolve current := by
  have start : above ∉ (if p.isAbsolute then [] else current) := by split <;> simp [h]
  unfold resolve
  generalize (if p.isAbsolute then [] else current) = place at start
  induction p.parts generalizing place with
  | nil => exact start
  | cons part parts ih => exact ih _ (above_notMem_follow start part)

/-- The text of a place that is given by the names from the root. -/
def absolute (place : List Text) : Text := '/' :: Text.joinWith ['/'] place

end Path

end ScriptAudit
