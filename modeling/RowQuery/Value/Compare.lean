import RowQuery.Value.Basic

/-!
# Comparing values

Values of one kind are ordered by their content.  Numbers of all kinds are ordered by size:
integers and codes exactly, and as floating-point numbers when one of the two is one.  Null
is comparable with nothing.

Main results:

- {lit}`Value.compare?` is the order, and none where there is none.
- {lit}`Value.looseEq` is equality with promotion of numbers, under which null equals null
  and nothing else.
-/

namespace RowQuery.Value

/-- The order of two floating-point numbers; none if one is not a number. -/
def compareDoubles? (x y : Float) : Option Ordering :=
  if x < y then some .lt
  else if x == y then some .eq
  else if y < x then some .gt
  else none

/-- The order of two values as floating-point numbers. -/
def compareAsDoubles? (a b : Value) : Option Ordering := do
  compareDoubles? (← a.double?) (← b.double?)

/-- The order of two values as integers. -/
def compareAsIntegers? (a b : Value) : Option Ordering := do
  return compare (← a.integer?).toInt (← b.integer?).toInt

/-- The order of two values, if they are comparable. -/
def compare? (a b : Value) : Option Ordering :=
  match a, b with
  | null, _ => none
  | _, null => none
  | bool x, bool y => some (compare x y)
  | text x, text y => some (compare x y)
  | uuid x, uuid y => some (x.order y)
  | dateTime x, dateTime y => some (x.order y)
  | date x, date y => some (x.order y)
  | bytes x, bytes y => some (compare x y)
  | double _, _ => compareAsDoubles? a b
  | _, double _ => compareAsDoubles? a b
  | _, _ => compareAsIntegers? a b

/-- Equality with promotion of numbers. -/
def looseEq (a b : Value) : Bool :=
  (a.isNull && b.isNull) || a.compare? b = some .eq

end RowQuery.Value
