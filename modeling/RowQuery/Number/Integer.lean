/-!
# Integers written in decimal

An integer is written with the fewest digits, with a minus sign when it is negative.  It is
read from an optional sign and ASCII digits, from left to right, and has to stay inside a
given range all along the way.

Main results:

- {lit}`integerText` writes and {lit}`readInteger` reads; the first fault from the left is
  the one reported.
-/

namespace RowQuery.Number

/-! ## Writing -/

/-- The decimal text of an integer. -/
def integerText (n : Int) : String :=
  if n < 0 then "-" ++ n.natAbs.repr else n.natAbs.repr

/-! ## Reading -/

/-- Why a text is not an integer of the range. -/
inductive IntegerError where
  | empty
  | invalidDigit
  | tooLarge
  | tooSmall
  deriving DecidableEq, Repr

/-- The wording of an integer error. -/
def IntegerError.message : IntegerError → String
  | .empty => "cannot parse integer from empty string"
  | .invalidDigit => "invalid digit found in string"
  | .tooLarge => "number too large to fit in target type"
  | .tooSmall => "number too small to fit in target type"

/-- The value of a decimal digit. -/
def digitValue (c : Char) : Nat :=
  c.toNat - '0'.toNat

/-- The value of the digits so far with one more digit, which counts downward when the
number is negative. -/
def appendDigit (negative : Bool) (acc : Int) (c : Char) : Int :=
  if negative then 10 * acc - digitValue c else 10 * acc + digitValue c

/-- Reads digits behind those that gave {lit}`acc`.  Each intermediate value has to lie
between {lit}`lo` and {lit}`hi`. -/
def readDigits (negative : Bool) (lo hi acc : Int) : List Char → Except IntegerError Int
  | [] => .ok acc
  | c :: rest =>
    if c.isDigit then
      if appendDigit negative acc c < lo then .error .tooSmall
      else if hi < appendDigit negative acc c then .error .tooLarge
      else readDigits negative lo hi (appendDigit negative acc c) rest
    else
      .error .invalidDigit

/-- Reads an integer between {lit}`lo` and {lit}`hi`.  A sign without digits is an invalid
digit. -/
def readInteger (lo hi : Int) : List Char → Except IntegerError Int
  | [] => .error .empty
  | '-' :: [] => .error .invalidDigit
  | '+' :: [] => .error .invalidDigit
  | '-' :: digits => readDigits true lo hi 0 digits
  | '+' :: digits => readDigits false lo hi 0 digits
  | digits => readDigits false lo hi 0 digits

/-- Reads an integer of 64 bits. -/
def readInt64 (text : List Char) : Except IntegerError Int64 :=
  (readInteger Int64.minValue.toInt Int64.maxValue.toInt text).map Int64.ofInt

end RowQuery.Number
