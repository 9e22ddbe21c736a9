import RowQuery.Number.Binary64
import RowQuery.Number.Integer

/-!
# Reading a floating-point number

The text is an optional sign and then either a name ({lit}`inf`, {lit}`infinity`,
{lit}`nan`, in any case) or a decimal with an optional point and an optional exponent.  The
number read is the one nearest to the decimal.

Main results:

- {lit}`readMantissa` and {lit}`readExponent` take the decimal apart; both leave what they
  do not understand.
- {lit}`readDouble` reads the whole text.
-/

namespace RowQuery.Number

/-- Why a text is not a floating-point number. -/
inductive DoubleError where
  | empty
  | invalid
  deriving DecidableEq, Repr

/-- The wording of a floating-point error. -/
def DoubleError.message : DoubleError → String
  | .empty => "cannot parse float from empty string"
  | .invalid => "invalid float literal"

/-- The natural number that the digits stand for. -/
def naturalOfDigits (digits : List Char) : Nat :=
  Nat.ofDigitChars 10 digits 0

/-- The digits before and behind the point, and the rest of the text.  One digit at least
has to be there. -/
def readMantissa (text : List Char) : Option (List Char × List Char × List Char) :=
  let whole := text.takeWhile Char.isDigit
  match text.dropWhile Char.isDigit with
  | '.' :: rest =>
    let fraction := rest.takeWhile Char.isDigit
    if whole.isEmpty && fraction.isEmpty then none
    else some (whole, fraction, rest.dropWhile Char.isDigit)
  | rest => if whole.isEmpty then none else some (whole, [], rest)

/-- Reads a sign: whether it is a minus, and what follows. -/
def readSign : List Char → Bool × List Char
  | '-' :: rest => (true, rest)
  | '+' :: rest => (false, rest)
  | rest => (false, rest)

/-- Reads an exponent that takes up the whole text; no text is exponent zero. -/
def readExponent : List Char → Option Int
  | [] => some 0
  | e :: rest =>
    if e = 'e' ∨ e = 'E' then
      let (negative, digits) := readSign rest
      if digits.isEmpty || !digits.all Char.isDigit then none
      else
        let n : Int := naturalOfDigits digits
        some (if negative then -n else n)
    else none

/-- The number nearest to {lit}`digits` times ten to the power of {lit}`exponent`.  Decimals
beyond the range of the format are settled by their size alone. -/
def nearestDecimal (negative : Bool) (digits : Nat) (exponent : Int) : Float :=
  let size : Int := (Nat.toDigits 10 digits).length + exponent
  if digits = 0 ∨ size < -400 then nearest negative 0 1
  else if 400 < size then ofMagnitude negative infinityBits
  else
    let (num, den) := scale 10 exponent digits 1
    nearest negative num den

/-- Reads the text behind the sign. -/
def readUnsigned (negative : Bool) (text : List Char) : Option Float :=
  let name := text.map Char.toLower
  if name = "inf".toList ∨ name = "infinity".toList then
    some (ofMagnitude negative infinityBits)
  else if name = "nan".toList then some notANumber
  else do
    let (whole, fraction, rest) ← readMantissa text
    let exponent ← readExponent rest
    let digits := naturalOfDigits (whole ++ fraction)
    return nearestDecimal negative digits (exponent - fraction.length)

/-- Reads a floating-point number that takes up the whole text. -/
def readDouble (text : List Char) : Except DoubleError Float :=
  if text.isEmpty then .error .empty
  else
    let (negative, rest) := readSign text
    match readUnsigned negative rest with
    | some x => .ok x
    | none => .error .invalid

end RowQuery.Number
