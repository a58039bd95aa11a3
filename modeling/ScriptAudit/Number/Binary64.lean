import ScriptAudit.Number.Rounding

/-!
# Binary fractions of 53 digits

A finite floating-point number is `± m · 2 ^ q` with `m < 2 ^ 53`. `Binary64.decode` takes a number
apart, `Binary64.ofRatio` gives the number nearest to a quotient of two natural numbers and
`Binary64.ofDecimal` the one nearest to a decimal numeral, ties going to the even mantissa.
-/

namespace ScriptAudit.Binary64

/-- A floating-point number taken apart. -/
inductive Parts
  /-- The number `± m · 2 ^ q`. -/
  | finite (negative : Bool) (m : Nat) (q : Int)
  /-- An infinity. -/
  | infinite (negative : Bool)
  /-- Not a number. -/
  | nan

/-- Takes a number apart. -/
def decode (x : Float) : Parts :=
  let bits := x.toBits.toNat
  let negative : Bool := bits / twoTo 63 == 1
  let e : Nat := bits / twoTo 52 % twoTo 11
  let f : Nat := bits % twoTo 52
  if e = 2047 then if f = 0 then .infinite negative else .nan
  else if e = 0 then .finite negative f (-1074)
  else .finite negative (twoTo 52 + f) ((e : Int) - 1075)

/-- Puts the sign on a magnitude given by its bits. -/
def withSign (negative : Bool) (bits : Nat) : Float :=
  Float.ofBits (UInt64.ofNat (if negative then twoTo 63 + bits else bits))

/-- The infinities. -/
def infinity (negative : Bool) : Float := withSign negative (2047 * twoTo 52)

/-- Not a number. -/
def nan : Float := Float.ofBits 0x7ff8000000000000

/-- Scales a quotient by a power of two: `n / d = n' / d' · 2 ^ q`. -/
def scaled (n d : Nat) (q : Int) : Nat × Nat :=
  if q ≥ 0 then (n, d * twoTo q.toNat) else (n * twoTo (-q).toNat, d)

/-- The exponent of the leading binary digit of `n / d`. -/
def leadingExponent (n d : Nat) : Int :=
  let e : Int := n.log2 - d.log2
  let (n', d') := scaled n d e
  if d' ≤ n' then e else e - 1

/-- The floating-point number nearest to `± n / d`, or `none` when it exceeds the range. -/
def ofRatio? (negative : Bool) (n d : Nat) : Option Float :=
  if n = 0 then some (withSign negative 0)
  else
    let q := max (leadingExponent n d - 52) (-1074)
    let (n', d') := scaled n d q
    let m := roundDiv n' d'
    let (m, q) := if m = twoTo 53 then (twoTo 52, q + 1) else (m, q)
    if m < twoTo 52 then some (withSign negative m)
    else if q > 971 then none
    else some (withSign negative ((q + 1075).toNat * twoTo 52 + (m - twoTo 52)))

/-- The floating-point number nearest to `± n / d`; what exceeds the range is an infinity. -/
def ofRatio (negative : Bool) (n d : Nat) : Float :=
  (ofRatio? negative n d).getD (infinity negative)

/-- The number of decimal digits of `n`. -/
def decimalLength (n : Nat) : Nat := if n = 0 then 0 else (Nat.toDigits 10 n).length

/-- The floating-point number nearest to `± n · 10 ^ e`. Exponents far outside the range are not
written out: what they give is known beforehand. -/
def ofDecimal (negative : Bool) (n : Nat) (e : Int) : Float :=
  let size := decimalLength n + e
  if n = 0 then withSign negative 0
  else if size > 400 then infinity negative
  else if size < -400 then withSign negative 0
  else if e ≥ 0 then ofRatio negative (n * tenTo e.toNat) 1
  else ofRatio negative n (tenTo (-e).toNat)

/-- The floating-point number nearest to an integer, or `none` when it exceeds the range. -/
def ofInt? (i : Int) : Option Float := ofRatio? (i < 0) i.natAbs 1

/-- The quotient of the magnitudes as an exact fraction, for a finite number. -/
def ratio (m : Nat) (q : Int) : Nat × Nat :=
  if q ≥ 0 then (m * twoTo q.toNat, 1) else (m, twoTo (-q).toNat)

end ScriptAudit.Binary64
