import RowQuery.Text.Ascii

/-!
# Types of values

A type describes the values of an expression, a column or a property.  Enumerations carry
their variants; an optional type admits null beside the values of the type inside.

Main results:

- {lit}`Ty.core` removes the optional wrappers; {lit}`core_core` says that none is left.
- {lit}`Ty.label` is how a type is named in messages.
-/

namespace RowQuery

/-! ## Enumerations -/

/-- A named code of an enumeration. -/
structure EnumVariant where
  name : String
  code : Int64
  deriving DecidableEq

/-- An enumeration: a name, and variants in the order of their declaration. -/
structure EnumType where
  name : String
  variants : List EnumVariant
  deriving DecidableEq

namespace EnumType

/-- The first variant with this code. -/
def byCode? (e : EnumType) (code : Int64) : Option EnumVariant :=
  e.variants.find? fun v => v.code = code

/-- The first variant with this name, whatever its ASCII case. -/
def byName? (e : EnumType) (name : String) : Option EnumVariant :=
  e.variants.find? fun v => Text.sameName v.name name

end EnumType

/-! ## Types -/

/-- The type of a value. -/
inductive Ty where
  | bool
  | int16
  | int32
  | int64
  | double
  | text
  | uuid
  | dateTime
  | date
  | bytes
  | enum (e : EnumType)
  | option (inner : Ty)
  | unknown
  deriving DecidableEq

namespace Ty

/-- The optional form of a type; a type that is optional already stays as it is. -/
def optional : Ty → Ty
  | option t => option t
  | t => option t

/-- The type without its optional wrappers. -/
def core : Ty → Ty
  | option t => t.core
  | t => t

/-- The outermost wrapper is optional. -/
def isOption : Ty → Bool
  | option _ => true
  | _ => false

/-- An enumeration, wrapped or not. -/
def isEnum (t : Ty) : Bool :=
  match t.core with
  | enum _ => true
  | _ => false

/-- Text, wrapped or not. -/
def isText (t : Ty) : Bool :=
  t.core = text

/-- An integer type, wrapped or not.  Enumerations are not counted. -/
def isInteger (t : Ty) : Bool :=
  t.core = int16 ∨ t.core = int32 ∨ t.core = int64

/-- A type of numbers, wrapped or not. -/
def isNumeric (t : Ty) : Bool :=
  t.isInteger || t.core = double

/-- The name of a type in messages. -/
def label : Ty → String
  | bool => "bool"
  | int16 => "i16"
  | int32 => "i32"
  | int64 => "i64"
  | double => "f64"
  | text => "string"
  | uuid => "uuid"
  | dateTime => "datetime"
  | date => "date"
  | bytes => "bytes"
  | enum e => "enum " ++ e.name
  | option t => "option<" ++ t.label ++ ">"
  | unknown => "unknown"

/-- The core of a type is never optional. -/
theorem isOption_core (t : Ty) : t.core.isOption = false := by
  induction t with
  | option t ih => exact ih
  | _ => rfl

/-- The core of a core is itself. -/
@[simp] theorem core_core (t : Ty) : t.core.core = t.core := by
  induction t with
  | option t ih => exact ih
  | _ => rfl

end Ty

end RowQuery
