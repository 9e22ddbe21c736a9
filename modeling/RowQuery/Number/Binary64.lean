/-!
# Binary floating point of 64 bits, exactly

A finite number of the format is a mantissa times a power of two, and each operation here is
done on these integers: rounding a quotient to the nearest number, rounding a number to an
integer, and the remainder of a division.

Main results:

- {lit}`nearest` rounds a quotient of naturals, ties going to the even mantissa.
- {lit}`toNearestInt` rounds to an integer, ties going away from zero.
- {lit}`remainder` has the sign of the dividend and is exact.
-/

namespace RowQuery.Number

/-! ## Taking a number apart -/

/-- A finite number as sign, mantissa and exponent of two. -/
structure Parts where
  negative : Bool
  mantissa : Nat
  exponent : Int
  deriving DecidableEq, Repr

/-- The exponent of two of the smallest positive number. -/
def leastExponent : Int := -1074

/-- The mantissas of the normal numbers start here. -/
def normalMantissa : Nat := Nat.pow 2 52

/-- The bits of positive infinity. -/
def infinityBits : Nat := 0x7FF * normalMantissa

/-- The bit of the sign. -/
def signBit : Nat := Nat.pow 2 63

/-- Takes a finite number apart. -/
def parts (x : Float) : Parts :=
  let bits := x.toBits.toNat
  let magnitude := bits % signBit
  let field := magnitude / normalMantissa
  let fraction := magnitude % normalMantissa
  { negative := signBit ≤ bits
    mantissa := if field = 0 then fraction else fraction + normalMantissa
    exponent := if field = 0 then leastExponent else field - 1 + leastExponent }

/-- The number with these magnitude bits and this sign. -/
def ofMagnitude (negative : Bool) (magnitude : Nat) : Float :=
  Float.ofBits (UInt64.ofNat (if negative then magnitude + signBit else magnitude))

/-- A value that is not a number. -/
def notANumber : Float := ofMagnitude false (infinityBits + normalMantissa / 2)

/-! ## Rounding a quotient -/

/-- The quotient rounded to the nearest natural, a tie going to the even one. -/
def divHalfEven (num den : Nat) : Nat :=
  let quotient := num / den
  let twice := 2 * (num % den)
  if twice < den then quotient
  else if den < twice then quotient + 1
  else if quotient % 2 = 0 then quotient
  else quotient + 1

/-- Multiplies a quotient by a power of a base, as a pair of naturals. -/
def scale (base : Nat) (exponent : Int) (num den : Nat) : Nat × Nat :=
  if 0 ≤ exponent then (num * Nat.pow base exponent.toNat, den)
  else (num, den * Nat.pow base (-exponent).toNat)

/-- The exponent of two at or below a positive quotient. -/
def binaryExponent (num den : Nat) : Int :=
  let guess : Int := (num.log2 : Int) - den.log2
  let (n, d) := scale 2 (-guess) num den
  if n < d then guess - 1 else guess

/-- The magnitude bits of the number nearest to a quotient.  Adding the mantissa to the bits
of the exponent carries into the next exponent by itself, and from the last into infinity. -/
def nearestBits (num den : Nat) : Nat :=
  if num = 0 then 0
  else
    let exponent := max (binaryExponent num den - 52) leastExponent
    let (n, d) := scale 2 (-exponent) num den
    min ((exponent - leastExponent).toNat * normalMantissa + divHalfEven n d) infinityBits

/-- The number nearest to a quotient of naturals, with a sign. -/
def nearest (negative : Bool) (num den : Nat) : Float :=
  ofMagnitude negative (nearestBits num den)

/-- The number nearest to an integer. -/
def nearestOfInt (n : Int) : Float :=
  nearest (n < 0) n.natAbs 1

/-! ## Rounding to an integer -/

/-- The integer nearest to a finite number, a tie going away from zero. -/
def toNearestInt (x : Float) : Int :=
  let p := parts x
  let (n, d) := scale 2 p.exponent p.mantissa 1
  let magnitude : Int := (2 * n + d) / (2 * d)
  if p.negative then -magnitude else magnitude

/-! ## Remainder -/

/-- The remainder of a division that is cut toward zero.  Infinite dividends and zero
divisors have none. -/
def remainder (x y : Float) : Float :=
  if x.isNaN || y.isNaN || x.isInf then notANumber
  else if y.isInf then x
  else
    let a := parts x
    let b := parts y
    if b.mantissa = 0 then notANumber
    else
      let exponent := min a.exponent b.exponent
      let m := a.mantissa * Nat.pow 2 (a.exponent - exponent).toNat
      let n := b.mantissa * Nat.pow 2 (b.exponent - exponent).toNat
      let (num, den) := scale 2 exponent (m % n) 1
      nearest a.negative num den

end RowQuery.Number
