import RowQuery.Value.Basic

/-!
# Rows

A row is what a result set shows while it stands somewhere: the description of its fields,
which stays the same, and the value of each field, which may fail to be there.

Main results:

- {lit}`Row.ordinal?` finds a field by name without regard to ASCII case.
- {lit}`Row.take` reads a field as a value of one type and refuses every other value.
-/

namespace RowQuery

/-- The description of a field: its name, the database's name of its type, and the type of the
values that are read. -/
structure Field where
  name : String
  nativeType : String
  ty : Ty
  deriving DecidableEq

/-- The ordinal of the first field with a name. -/
def Field.ordinal? (fields : List Field) (name : String) : Option Nat :=
  fields.findIdx? fun f => Text.sameName f.name name

/-- A row: its fields, and the value at each ordinal. -/
structure Row where
  fields : List Field
  value : Nat → Except Fault Value

namespace Row

/-- The ordinal of the first field with a name. -/
def ordinal? (r : Row) (name : String) : Option Nat :=
  Field.ordinal? r.fields name

/-- The field at an ordinal is null. -/
def isNull (r : Row) (ordinal : Nat) : Except Fault Bool :=
  (r.value ordinal).map Value.isNull

/-- The value at an ordinal, which has to be of the type. -/
def take (r : Row) (ordinal : Nat) (ty : Ty) : Except Fault Value := do
  (← r.value ordinal).take ty

end Row

end RowQuery
