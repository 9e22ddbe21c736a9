import RowQuery.Rows.Row
import RowQuery.Schema.Table

/-!
# Ways to read a field

How a field is read into a place depends on types alone and is decided once: by the
converter of the column if there is one, by the code of an enumeration, as the text of an
identifier, by the general conversion if the types differ, or else as it is.

Main results:

- {lit}`Reading.choose` decides and {lit}`Reading.read` reads; null is read as nothing.
-/

namespace RowQuery

/-- How a value reaches its place. -/
inductive Reading where
  /-- The field has the type of the place. -/
  | direct (ordinal : Nat) (ty : Ty)
  /-- The field is converted. -/
  | converted (ordinal : Nat) (converter : Converter)
  /-- The value does not come from the row. -/
  | injected (v : Value)
  /-- Nothing reaches the place. -/
  | missing

namespace Reading

/-- How a field of type {lit}`source` is read into a place of type {lit}`place`. -/
def choose (ordinal : Nat) (source place : Ty) (converter : Option Converter) : Reading :=
  match converter, place.core with
  | some c, _ => converted ordinal c
  | none, .enum e => converted ordinal (.enumeration e)
  | none, core =>
    if core = .text ∧ source.core = .uuid then converted ordinal .uuidText
    else if source.core ≠ core then converted ordinal (.general place source)
    else direct ordinal core

/-- Reads the value; null is nothing. -/
def read (reading : Reading) (r : Row) : Except Fault (Option Value) :=
  match reading with
  | direct ordinal ty => do
    if ← r.isNull ordinal then return none
    return some (← r.take ordinal ty)
  | converted ordinal converter => do
    let v ← r.value ordinal
    if v.isNull then return none
    return some (← converter.read v)
  | injected v => return some v
  | missing => return none

end Reading

end RowQuery
