import RowQuery.Number.Binary64

/-!
# The shortest decimal text of a floating-point number

A number is written with the fewest significant digits that read back as the same number,
and of those nearest to it.  The text is positional at every size and has no point when
nothing stands behind it.

Main results:

- {lit}`shortest` finds the digits: for each count it tests the two neighbours of the value
  on the grid of that many digits.
- {lit}`positional` places the point, and {lit}`doubleText` adds the sign and the names of
  the values that are not finite.
-/

namespace RowQuery.Number

/-! ## Digits -/

/-- A decimal number, {lit}`digits` times ten to the power of {lit}`exponent`. -/
structure Decimal where
  digits : Nat
  exponent : Int
  deriving DecidableEq, Repr

/-- The least power of ten above a positive quotient that is not below ten to the power of
minus four hundred. -/
def decimalExponent (num den : Nat) : Int :=
  (Nat.toDigits 10 (num * Nat.pow 10 400 / den)).length - 400

/-- The decimals that read back as {lit}`m` times two to the power of {lit}`e`.  All values
are counted in quarters of the last place: the value is {lit}`value`, and the decimals that
round to it lie between {lit}`low` and {lit}`high`, ends included when the mantissa is even.
Below a power of two the neighbours are half as far apart. -/
structure Window where
  low : Nat
  value : Nat
  high : Nat
  closed : Bool
  unit : Nat × Nat

/-- The window of a positive number. -/
def Window.of (p : Parts) : Window :=
  let narrow := p.mantissa = normalMantissa && leastExponent < p.exponent
  { low := if narrow then 4 * p.mantissa - 1 else 4 * p.mantissa - 2
    value := 4 * p.mantissa
    high := 4 * p.mantissa + 2
    closed := p.mantissa % 2 = 0
    unit := scale 2 (p.exponent - 2) 1 1 }

/-- The decimal on the grid of ten to the power of {lit}`exponent` that lies in the window
and is nearest to the value, if one lies there; of two equally near the upper one. -/
def Window.hit? (w : Window) (exponent : Int) : Option Decimal :=
  let (gridNum, gridDen) := scale 10 exponent 1 1
  let step := gridNum * w.unit.2
  let quarter := w.unit.1 * gridDen
  let below := w.value * quarter / step
  let within (a b : Nat) : Bool := if w.closed then a ≤ b else a < b
  let down := within (w.low * quarter) (below * step)
  let up := within ((below + 1) * step) (w.high * quarter)
  if up && (!down || (2 * below + 1) * step ≤ 2 * (w.value * quarter)) then
    some ⟨below + 1, exponent⟩
  else if down then some ⟨below, exponent⟩
  else none

/-- The shortest decimal of a positive number.  Seventeen digits are always enough. -/
def shortest (p : Parts) : Decimal :=
  let w := Window.of p
  let (num, den) := scale 2 p.exponent p.mantissa 1
  let top := decimalExponent num den
  ((List.range 17).findSome? fun (i : Nat) => w.hit? (top - (i + 1))).getD ⟨0, 0⟩

/-! ## Text -/

/-- Removes the zeros at the end of the digits. -/
def Decimal.strip (d : Decimal) : Decimal :=
  let digits := Nat.toDigits 10 d.digits
  let zeros := (digits.reverse.takeWhile (· == '0')).length
  ⟨d.digits / Nat.pow 10 zeros, d.exponent + zeros⟩

/-- The positional text of a decimal. -/
def Decimal.positional (d : Decimal) : List Char :=
  let digits := Nat.toDigits 10 d.digits
  if 0 ≤ d.exponent then digits ++ List.replicate d.exponent.toNat '0'
  else
    let places := (-d.exponent).toNat
    let padded := List.replicate (places + 1 - digits.length) '0' ++ digits
    padded.take (padded.length - places) ++ '.' :: padded.drop (padded.length - places)

/-- The text of a floating-point number. -/
def doubleText (x : Float) : String :=
  if x.isNaN then "NaN"
  else
    let p := parts x
    let sign := if p.negative then "-" else ""
    if x.isInf then sign ++ "inf"
    else if p.mantissa = 0 then sign ++ "0"
    else sign ++ String.ofList (shortest p).strip.positional

end RowQuery.Number
