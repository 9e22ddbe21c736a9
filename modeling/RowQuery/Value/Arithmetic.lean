import RowQuery.Value.Cast
import RowQuery.Value.Compare

/-!
# Operators on values

What the binary operators do with two constants.  Comparisons with null are false, except
that null equals null; arithmetic with null is null.  A sum with a text joins the texts.
Integers are computed exactly and refused when the result does not fit.

Main results:

- {lit}`Value.operate` applies an operator, by way of {lit}`Value.test`,
  {lit}`Value.connect` and {lit}`Value.compute`.
- {lit}`exactResult?` is the exact integer result and {lit}`widerTy` the type it has to fit.
-/

namespace RowQuery

namespace Value

/-! ## Comparisons -/

/-- What a comparison says about an order. -/
def holds (op : Comparison) (order : Ordering) : Bool :=
  match op with
  | .eq => order.isEq
  | .ne => !order.isEq
  | .ge => order.isGE
  | .gt => order.isGT
  | .le => order.isLE
  | .lt => order.isLT

/-- Applies an ordering comparison: false for null, a fault for values without an order. -/
def testOrder (op : Comparison) (a b : Value) : Except Fault Bool :=
  match a.compare? b with
  | some order => .ok (holds op order)
  | none =>
    if a.isNull || b.isNull then .ok false
    else .error (Fault.evaluation (.notComparable a.ty b.ty))

/-- Applies a comparison. -/
def test (op : Comparison) (a b : Value) : Except Fault Bool :=
  match op with
  | .eq => .ok (a.looseEq b)
  | .ne => .ok (!a.looseEq b)
  | op => a.testOrder op b

/-! ## Connectives -/

/-- Applies a connective to two truth values. -/
def connect (op : Connective) (a b : Value) : Except Fault Bool :=
  match a.bool?, b.bool? with
  | some x, some y =>
    match op with
    | .and => .ok (x && y)
    | .or => .ok (x || y)
  | _, _ => .error (Fault.evaluation (.notLogical op))

/-! ## Arithmetic -/

/-- The integer fits in 64 bits. -/
def fitsInt64 (n : Int) : Bool :=
  Int64.minValue.toInt ≤ n && n ≤ Int64.maxValue.toInt

/-- The exact result of an integer computation.  Division is cut toward zero, has no result
by zero, and the least integer has no remainder by minus one, as its quotient does not
fit. -/
def exactResult? (op : Arithmetic) (a b : Int) : Option Int :=
  match op with
  | .add => some (a + b)
  | .sub => some (a - b)
  | .mul => some (a * b)
  | .div => if b = 0 then none else some (a.tdiv b)
  | .rem =>
    if b = 0 then none
    else if fitsInt64 (a.tdiv b) then some (a.tmod b)
    else none

/-- Computes with integers of 64 bits. -/
def computeIntegers (op : Arithmetic) (a b : Int64) : Except Fault Int64 :=
  match exactResult? op a.toInt b.toInt with
  | some n =>
    if fitsInt64 n then .ok (Int64.ofInt n) else .error (Fault.evaluation (.outOfRange op))
  | none => .error (Fault.evaluation (.outOfRange op))

/-- Computes with floating-point numbers. -/
def computeDoubles (op : Arithmetic) (x y : Float) : Float :=
  match op with
  | .add => x + y
  | .sub => x - y
  | .mul => x * y
  | .div => x / y
  | .rem => Number.remainder x y

/-- The wider of the integer types of two operands; all but the two wide ones count as
narrow. -/
def widerTy (a b : Value) : Ty :=
  if a.ty = .int64 ∧ a.isNumeric ∨ b.ty = .int64 ∧ b.isNumeric then .int64
  else if a.ty = .int32 ∨ b.ty = .int32 then .int32
  else .int16

/-- The value is a floating-point number. -/
def isDouble : Value → Bool
  | double _ => true
  | _ => false

/-- Joins the texts of two values. -/
def join (a b : Value) : Except Fault Value := do
  return text ((← a.toText) ++ (← b.toText))

/-- Applies a computation. -/
def compute (op : Arithmetic) (a b : Value) : Except Fault Value :=
  let refused := Except.error (Fault.evaluation (.notArithmetic op a.ty b.ty))
  if a.isNull || b.isNull then .ok null
  else if op = .add ∧ (a.text?.isSome || b.text?.isSome) then a.join b
  else if a.isDouble || b.isDouble then
    match a.double?, b.double? with
    | some x, some y => .ok (double (computeDoubles op x y))
    | _, _ => refused
  else
    match a.integer?, b.integer? with
    | some m, some n => do (int64 (← computeIntegers op m n)).cast (widerTy a b)
    | _, _ => refused

/-! ## All operators -/

/-- Applies an operator. -/
def operate (op : BinaryOp) (a b : Value) : Except Fault Value :=
  match op with
  | .compare op => (test op a b).map bool
  | .connect op => (connect op a b).map bool
  | .compute op => compute op a b

/-- Negates a truth value; null stays null. -/
def negate : Value → Except Fault Value
  | bool b => .ok (bool !b)
  | null => .ok null
  | v => .error (Fault.evaluation (.notNegatable v.ty))

end Value

end RowQuery
