import ScriptAudit.Number.Shortest
import ScriptAudit.Number.Fixed

/-!
# Numbers

A `Number` is an integer of any size or a floating-point number. The two kinds are kept apart,
because they are written differently, but they are compared by their exact values.
-/

namespace ScriptAudit

/-- An integer or a floating-point number. -/
inductive Number
  /-- An integer. -/
  | int (value : Int)
  /-- A floating-point number. -/
  | float (value : Float)

namespace Number

/-- The exact value of a number. -/
inductive Extent
  /-- The fraction `n / d`. -/
  | ratio (n : Int) (d : Nat)
  /-- An infinity. -/
  | infinite (negative : Bool)
  /-- Not a number. -/
  | nan

/-- The exact value of a number. -/
def extent : Number → Extent
  | .int i => .ratio i 1
  | .float x =>
    match Binary64.decode x with
    | .nan => .nan
    | .infinite negative => .infinite negative
    | .finite negative m q =>
      let (n, d) := Binary64.ratio m q
      .ratio (if negative then -(n : Int) else n) d

/-- Whether one value lies below another; nothing lies below or above what is not a number. -/
def Extent.below : Extent → Extent → Bool
  | .nan, _ => false
  | _, .nan => false
  | .infinite a, .infinite b => a && !b
  | .infinite a, .ratio _ _ => a
  | .ratio _ _, .infinite b => !b
  | .ratio n d, .ratio n' d' => n * d' < n' * d

/-- Whether one number is less than another. -/
def less (a b : Number) : Bool := a.extent.below b.extent

/-- Whether a number equals zero. -/
def isZero (a : Number) : Bool :=
  match a.extent with
  | .ratio n _ => n == 0
  | _ => false

/-- Whether two numbers have the same value. -/
def same (a b : Number) : Bool :=
  match a.extent, b.extent with
  | .ratio n d, .ratio n' d' => n * d' == n' * d
  | .infinite x, .infinite y => x == y
  | _, _ => false

/-- The text of a number: an integer in decimal digits, a fraction in its shortest form. -/
def text : Number → Text
  | .int i => Text.ofInt i
  | .float x => Shortest.text x

/-- The number as a floating-point number, or `none` for an integer beyond their range. -/
def toFloat? : Number → Option Float
  | .int i => Binary64.ofInt? i
  | .float x => some x

end Number

end ScriptAudit
