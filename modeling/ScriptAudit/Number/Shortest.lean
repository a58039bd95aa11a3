import ScriptAudit.Text.Basic
import ScriptAudit.Number.Binary64

/-!
# The shortest decimal that reads back

A floating-point number is written with the fewest significant digits that determine it, and of
several such numerals the nearest one, the even one of two equally near. `Shortest.digits` finds
them: every real number between the two midpoints to the neighbours of `m · 2 ^ q` reads back as
this number (the midpoints included when `m` is even), so the first decimal grid that has a point
there is the one to take, and one of the two grid points next to the number itself is the nearest.
`Shortest.style` holds the choices that the written form leaves open, and `Shortest.text` writes it.
-/

namespace ScriptAudit.Shortest

/-- Whether a numeral `c / s` lies where every real number reads back as the number. The bounds are
numerators over `s`. -/
def within (low high : Nat) (closed : Bool) (c : Nat) : Bool :=
  if closed then low ≤ c && c ≤ high else low < c && c < high

/-- The candidates on the grid of width `g`: the points at and above `v`, the nearer one first. Of
two equally near ones the even one comes first. -/
def candidates (v g : Nat) : List Nat :=
  let below := v / g
  if 2 * (v % g) < g || (2 * (v % g) = g && below % 2 = 0) then [below, below + 1]
  else [below + 1, below]

/-- Looks for a numeral on grids that become ten times finer. All quantities are numerators over a
common denominator, which `finer` multiplies. -/
def onGrid : (fuel : Nat) → (v low high : Nat) → (closed : Bool) → (g : Nat) → (e : Int) → Nat × Int
  | 0, v, _, _, _, g, e => (v / g, e)
  | fuel + 1, v, low, high, closed, g, e =>
    match (candidates v g).find? fun c => within low high closed (c * g) with
    | some c => (c, e)
    | none =>
      -- the next grid is a tenth of this one: scale everything else instead
      onGrid fuel (v * 10) (low * 10) (high * 10) closed g (e - 1)

/-- The decimal exponent of the leading digit of `n / d`, at or just above the true one. -/
def leadingPlace (n d : Nat) : Int :=
  Binary64.decimalLength n - Binary64.decimalLength d

/-- Removes trailing zeros from `c · 10 ^ e`. -/
def trimZeros : (fuel : Nat) → Nat → Int → Nat × Int
  | 0, c, e => (c, e)
  | fuel + 1, c, e => if c ≠ 0 && c % 10 = 0 then trimZeros fuel (c / 10) (e + 1) else (c, e)

/-- The digits `c` and the exponent `e` of the shortest numeral `c · 10 ^ e` for `m · 2 ^ q`. -/
def digits (m : Nat) (q : Int) : Nat × Int :=
  -- everything is measured in quarters of `2 ^ q`
  let (unit, d) := Binary64.ratio 1 (q - 2)
  let v := 4 * m * unit
  let low := (if m = twoTo 52 && q > -1074 then 4 * m - 1 else 4 * m - 2) * unit
  let high := (4 * m + 2) * unit
  let place := leadingPlace v d
  -- the grid of width 10 ^ place, over the denominator d
  let (v, low, high, g) :=
    if place ≥ 0 then (v, low, high, d * tenTo place.toNat)
    else (v * tenTo (-place).toNat, low * tenTo (-place).toNat, high * tenTo (-place).toNat, d)
  let (c, e) := onGrid 20 v low high (m % 2 = 0) g place
  trimZeros 20 c e

/-- The choices that the written form of a number leaves open. -/
structure Style where
  /-- The least decimal exponent that is written positionally. -/
  lowest : Int
  /-- The least decimal exponent above the positional ones. -/
  highest : Int
  /-- The least number of digits of an exponent. -/
  exponentDigits : Nat
  /-- What is written for an infinity. -/
  infinity : Text
  /-- What is written for the number that is none. -/
  nan : Text

/-- Numbers from `0.0001` up to below `10 ^ 16` are written positionally and keep a fractional part;
exponents have a sign and at least two digits. -/
def style : Style where
  lowest := -4
  highest := 16
  exponentDigits := 2
  infinity := "inf"
  nan := "nan"

/-- Writes `c · 10 ^ e`, positionally where the style says so. -/
def Style.magnitude (s : Style) (c : Nat) (e : Int) : Text :=
  let ds := Text.ofNat c
  let point : Int := ds.length + e
  if c = 0 then "0.0"
  else if s.lowest < point && point ≤ s.highest then
    if point ≤ 0 then ("0." : Text) ++ Text.copies (-point).toNat '0' ++ ds
    else if point ≥ ds.length then ds ++ Text.copies (point - ds.length).toNat '0' ++ ".0"
    else ds.take point.toNat ++ ['.'] ++ ds.drop point.toNat
  else
    let x := point - 1
    let xs := Text.ofNat x.natAbs
    ds.take 1 ++ (if ds.length > 1 then '.' :: ds.drop 1 else []) ++
      ['e', if x < 0 then '-' else '+'] ++ Text.copies (s.exponentDigits - xs.length) '0' ++ xs

/-- The shortest text that reads back as the number. -/
def text (x : Float) : Text :=
  match Binary64.decode x with
  | .nan => style.nan
  | .infinite negative => (if negative then ['-'] else []) ++ style.infinity
  | .finite negative m q =>
    let (c, e) := if m = 0 then (0, 0) else digits m q
    (if negative then ['-'] else []) ++ style.magnitude c e

end ScriptAudit.Shortest
