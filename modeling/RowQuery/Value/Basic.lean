import RowQuery.Fault

/-!
# Values

A value is a constant of an expression, a parameter of a statement, or a field of a row.
Null has no type of its own; an enumeration value carries its code and, if the code is
declared, its name.

Main results:

- {lit}`Value.ty` is the type of a value and {lit}`Value.isA` says where it can stand in
  without conversion.
- {lit}`Ty.default` is the natural default of a type; {lit}`isA_default` says that it belongs
  there.
- {lit}`Value.take` hands a value to a place of a type and refuses every other value.
-/

namespace RowQuery

/-! ## Values -/

/-- A value of an enumeration.  A code that no variant declares has no name. -/
structure EnumValue where
  code : Int64
  name : Option String
  deriving DecidableEq

/-- The value of an enumeration with this code. -/
def EnumType.valueOf (e : EnumType) (code : Int64) : EnumValue :=
  ⟨code, (e.byCode? code).map EnumVariant.name⟩

/-- A value. -/
inductive Value where
  | null
  | bool (b : Bool)
  | int16 (n : Int16)
  | int32 (n : Int32)
  | int64 (n : Int64)
  | double (x : Float)
  | text (s : String)
  | uuid (u : Uuid)
  | dateTime (m : DateTime)
  | date (d : Date)
  | bytes (bs : List UInt8)
  | enum (e : EnumValue)
  deriving DecidableEq

namespace Value

instance : Inhabited Value := ⟨null⟩

/-- The value is null. -/
def isNull : Value → Bool
  | null => true
  | _ => false

/-- The type of a value.  Null reports the unknown type; an enumeration value, which does not
know its enumeration, reports the type of its code. -/
def ty : Value → Ty
  | null => .unknown
  | bool _ => .bool
  | int16 _ => .int16
  | int32 _ => .int32
  | int64 _ => .int64
  | double _ => .double
  | text _ => .text
  | uuid _ => .uuid
  | dateTime _ => .dateTime
  | date _ => .date
  | bytes _ => .bytes
  | enum _ => .int64

/-- The value can stand in for a value of the type without conversion. -/
def isA (v : Value) : Ty → Bool
  | .option inner => v.isNull || v.isA inner
  | .enum _ =>
    match v with
    | enum _ => true
    | _ => false
  | t =>
    match v with
    | enum _ => false
    | v => v.ty = t

/-- Two values are the same in kind and content.  Floating-point numbers are compared as
numbers, so that one that is not a number differs from itself and both zeros are the same. -/
def same : Value → Value → Bool
  | double x, double y => x == y
  | a, b => a = b

/-! ## Views -/

/-- The text of a text value. -/
def text? : Value → Option String
  | text s => some s
  | _ => none

/-- The truth of a truth value. -/
def bool? : Value → Option Bool
  | bool b => some b
  | _ => none

/-- The integer of an integer value, or the code of an enumeration value. -/
def integer? : Value → Option Int64
  | int16 n => some n.toInt64
  | int32 n => some n.toInt64
  | int64 n => some n
  | enum e => some e.code
  | _ => none

/-- The number of a numeric value as a floating-point number, rounded to nearest. -/
def double? : Value → Option Float
  | double x => some x
  | v => v.integer?.map fun n => Number.nearestOfInt n.toInt

/-- A number, enumeration values not counted. -/
def isNumeric : Value → Bool
  | int16 _ | int32 _ | int64 _ | double _ => true
  | _ => false

/-- The value as a count, which is an integer that is not negative. -/
def count (v : Value) : Except Fault UInt64 :=
  match v.integer? with
  | some n =>
    if 0 ≤ n.toInt then .ok n.toUInt64
    else .error (Fault.of (.conversion (.mismatch v.ty "usize")))
  | none => .error (Fault.of (.conversion (.mismatch v.ty "usize")))

/-! ## Handing over -/

/-- How a place for values of a type is named in messages. -/
def placeLabel (t : Ty) : String :=
  match t.core with
  | .enum _ => "enum"
  | t => t.label

/-- Hands a value to a place of a type.  An optional place takes null as well, a place for an
enumeration takes the value of any enumeration, and a place of unknown type takes all. -/
def take (v : Value) (t : Ty) : Except Fault Value :=
  if t.core = .unknown ∨ (t.isOption ∧ v.isNull) ∨ v.isA t.core then .ok v
  else .error (Fault.of (.conversion (.mismatch v.ty (placeLabel t))))

end Value

/-! ## Defaults -/

/-- The natural default of a type: zero, falsehood, the empty text, the nil identifier, the
epoch, no bytes, the value of code zero, and null where null is admitted. -/
def Ty.default : Ty → Value
  | .bool => .bool false
  | .int16 => .int16 0
  | .int32 => .int32 0
  | .int64 => .int64 0
  | .double => .double 0
  | .text => .text ""
  | .uuid => .uuid Uuid.nil
  | .dateTime => .dateTime (DateTime.atMidnight Date.epoch)
  | .date => .date Date.epoch
  | .bytes => .bytes []
  | .enum e => .enum (e.valueOf 0)
  | .option _ => .null
  | .unknown => .null

/-- The default of a type belongs to the type. -/
theorem isA_default (t : Ty) : t.default.isA t = true := by
  cases t <;> rfl

end RowQuery
