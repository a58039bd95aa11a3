import ScriptAudit.Text.Basic
import ScriptAudit.Number.Binary64

/-!
# A fixed number of decimal places

`Fixed.text places x` writes a number with exactly `places` digits after the point. The digits are
those of the exact value, rounded to the nearest numeral; a tie goes to the even digit.
-/

namespace ScriptAudit.Fixed

/-- Writes `n / 10 ^ places`. -/
def magnitude (places n : Nat) : Text :=
  let whole := Text.ofNat (n / tenTo places)
  let fraction := Text.ofNat (n % tenTo places)
  if places = 0 then whole
  else whole ++ ['.'] ++ Text.copies (places - fraction.length) '0' ++ fraction

/-- Writes a number with the given number of places. -/
def text (places : Nat) (x : Float) : Text :=
  match Binary64.decode x with
  | .nan => "nan"
  | .infinite negative => if negative then "-inf" else "inf"
  | .finite negative m q =>
    let (n, d) := Binary64.ratio m q
    (if negative then ['-'] else []) ++ magnitude places (roundDiv (n * tenTo places) d)

end ScriptAudit.Fixed
