import RowQuery.Number.Shortest
import RowQuery.Value.Basic

/-!
# Converting values

The general conversion of a value to a type.  Null stays null.  Integers are narrowed only
when they fit, floating-point numbers are rounded to the nearest integer, texts are read,
dates widen to midnight and moments narrow to their date.

Main results:

- {lit}`Value.cast` is the conversion.  One function stands behind each kind of target:
  {lit}`toBool`, {lit}`toInteger`, {lit}`toDouble`, {lit}`toText`, {lit}`toUuid`,
  {lit}`toDateTime`, {lit}`toDate`, {lit}`toBytes` and {lit}`toEnum?`.
- {lit}`cast_null` and {lit}`cast_option` say that null and optional wrappers do not matter.
-/

namespace RowQuery.Value

/-! ## Targets -/

/-- The fault of a value that has no counterpart in a type. -/
def refuse {α : Type} (v : Value) (target : Ty) : Except Fault α :=
  .error (Fault.mismatch v.ty target)

/-- A reader's answer, its error turned into a fault. -/
def reading {ε α : Type} (wrap : ε → ReadingError) (answer : Except ε α) : Except Fault α :=
  answer.mapError fun e => Fault.ofReading (wrap e)

/-- Reads a truth value: a word in any ASCII case, or a digit. -/
def readBool? (s : String) : Option Bool :=
  let word := Text.trimmed s
  if Text.sameName word "true" || word = "1" then some true
  else if Text.sameName word "false" || word = "0" then some false
  else none

/-- The truth of a value.  A number is true when it is not zero. -/
def toBool (v : Value) : Except Fault Bool :=
  match v with
  | bool b => .ok b
  | text s =>
    match readBool? s with
    | some b => .ok b
    | none => v.refuse .bool
  | double x => .ok (x != 0)
  | v =>
    match v.integer? with
    | some n => .ok (n ≠ 0)
    | none => v.refuse .bool

/-- The integer of 64 bits that a value stands for. -/
def toInteger (v : Value) : Except Fault Int64 :=
  match v with
  | bool b => .ok (if b then 1 else 0)
  | text s => reading .integer (Number.readInt64 (Text.trim s.toList))
  | double x =>
    let n := Number.toNearestInt x
    if x.isFinite && Int64.minValue.toInt ≤ n && n ≤ Int64.maxValue.toInt then
      .ok (Int64.ofInt n)
    else
      v.refuse .int64
  | v =>
    match v.integer? with
    | some n => .ok n
    | none => v.refuse .int64

/-- The integer of 16 bits that a value stands for. -/
def toInteger16 (v : Value) : Except Fault Int16 := do
  let n ← v.toInteger
  if Int16.minValue.toInt ≤ n.toInt ∧ n.toInt ≤ Int16.maxValue.toInt then
    return Int16.ofInt n.toInt
  else
    v.refuse .int16

/-- The integer of 32 bits that a value stands for. -/
def toInteger32 (v : Value) : Except Fault Int32 := do
  let n ← v.toInteger
  if Int32.minValue.toInt ≤ n.toInt ∧ n.toInt ≤ Int32.maxValue.toInt then
    return Int32.ofInt n.toInt
  else
    v.refuse .int32

/-- The floating-point number that a value stands for. -/
def toDouble (v : Value) : Except Fault Float :=
  match v with
  | text s => reading .double (Number.readDouble (Text.trim s.toList))
  | bool b => .ok (Number.nearestOfInt (if b then 1 else 0))
  | v =>
    match v.double? with
    | some x => .ok x
    | none => v.refuse .double

/-- The text of an enumeration value: its name, or its code if it has none. -/
def enumText (e : EnumValue) : String :=
  e.name.getD (Number.integerText e.code.toInt)

/-- The text of a value. -/
def toText (v : Value) : Except Fault String :=
  match v with
  | text s => .ok s
  | bool b => .ok (if b then "true" else "false")
  | int16 n => .ok (Number.integerText n.toInt)
  | int32 n => .ok (Number.integerText n.toInt)
  | int64 n => .ok (Number.integerText n.toInt)
  | double x => .ok (Number.doubleText x)
  | uuid u => .ok (String.ofList u.text)
  | date d => .ok (String.ofList d.text)
  | dateTime m => .ok (String.ofList m.text)
  | enum e => .ok (enumText e)
  | bytes _ => v.refuse .text
  | null => v.refuse .text

/-- The identifier that a value stands for. -/
def toUuid (v : Value) : Except Fault Uuid :=
  match v with
  | uuid u => .ok u
  | text s => reading .uuid (Uuid.read (Text.trim s.toList))
  | bytes bs => reading .uuid (Uuid.ofBytes bs)
  | v => v.refuse .uuid

/-- Reads a moment from a text with blanks around it. -/
def readDateTime (s : String) : Except Fault DateTime :=
  reading .moment (DateTime.read (Text.trim s.toList))

/-- The moment that a value stands for. -/
def toDateTime (v : Value) : Except Fault DateTime :=
  match v with
  | dateTime m => .ok m
  | date d => .ok (DateTime.atMidnight d)
  | text s => readDateTime s
  | v => v.refuse .dateTime

/-- The date that a value stands for. -/
def toDate (v : Value) : Except Fault Date :=
  match v with
  | date d => .ok d
  | dateTime m => .ok m.date
  | text s =>
    match Date.read (Text.trim s.toList) with
    | .ok d => .ok d
    | .error _ => (readDateTime s).map DateTime.date
  | v => v.refuse .date

/-- The bytes that a value stands for. -/
def toBytes (v : Value) : Except Fault (List UInt8) :=
  match v with
  | bytes bs => .ok bs
  | text s => .ok s.toByteArray.data.toList
  | uuid u => .ok u.bytes
  | v => v.refuse .bytes

/-- The value of an enumeration that a text names, by variant or by code. -/
def readEnum? (e : EnumType) (s : String) : Option EnumValue :=
  let word := Text.trimmed s
  match e.byName? word with
  | some variant => some ⟨variant.code, some variant.name⟩
  | none => (Number.readInt64 word.toList).toOption.map e.valueOf

/-- The value of an enumeration that a value stands for. -/
def toEnum? (v : Value) (e : EnumType) : Option EnumValue :=
  match v with
  | text s => readEnum? e s
  | v => v.integer?.map e.valueOf

/-! ## Conversion -/

/-- Converts a value to a type. -/
def cast (v : Value) (t : Ty) : Except Fault Value :=
  if v.isNull then .ok null
  else
    match t with
    | .option inner => v.cast inner
    | .unknown => .ok v
    | .bool => v.toBool.map bool
    | .int16 => v.toInteger16.map int16
    | .int32 => v.toInteger32.map int32
    | .int64 => v.toInteger.map int64
    | .double => v.toDouble.map double
    | .text => v.toText.map text
    | .uuid => v.toUuid.map uuid
    | .dateTime => v.toDateTime.map dateTime
    | .date => v.toDate.map date
    | .bytes => v.toBytes.map bytes
    | .enum e =>
      match v.toEnum? e with
      | some value => .ok (enum value)
      | none => v.refuse t

@[simp] theorem cast_null (t : Ty) : null.cast t = .ok null := by
  cases t <;> rfl

@[simp] theorem cast_option (v : Value) (t : Ty) : v.cast (.option t) = v.cast t := by
  cases v with
  | null => simp
  | _ => rfl

end RowQuery.Value
