import RowQuery.Value.Cast

/-!
# Converters

A column may be stored in another form than the one a model uses.  A converter turns what is
read from the database into the model's form, and back.  Any two functions make a converter, and
a column may have one of its own; three are at hand.

Main results:

- {lit}`Converter.read` goes from the database to the model, {lit}`Converter.write` from the
  model to the database.
- {lit}`Converter.enumeration`, {lit}`Converter.uuidText` and {lit}`Converter.general` are the
  converters at hand.
-/

namespace RowQuery

/-- How the stored form of a column relates to the form in a model.  Nothing is asked of the two
ways, not even that one undoes the other. -/
structure Converter where
  /-- Turns a stored value into the form of the model. -/
  read : Value → Except Fault Value
  /-- Turns a value of the model into the stored form. -/
  write : Value → Except Fault Value

namespace Converter

/-! ## Enumerations -/

/-- The code that is stored for a value.  A text has to name a variant. -/
def writeCode (e : EnumType) (v : Value) : Except Fault Value :=
  match v with
  | .enum value => .ok (.int64 value.code)
  | .null => .ok .null
  | .text name =>
    match e.byName? name with
    | some variant => .ok (.int64 variant.code)
    | none => .error (Fault.of (.conversion (.notAVariant name e.name)))
  | v => v.cast .int64

/-- Codes are stored and the model has the values of an enumeration. -/
def enumeration (e : EnumType) : Converter where
  read v := v.cast (.enum e)
  write v := writeCode e v

/-! ## Identifiers -/

/-- The text of an identifier; a text and null stay as they are. -/
def readUuidText (v : Value) : Except Fault Value :=
  match v with
  | .uuid u => .ok (.text (String.ofList u.text))
  | .text s => .ok (.text s)
  | .null => .ok .null
  | v => v.refuse .text

/-- Identifiers are stored and the model has their text. -/
def uuidText : Converter where
  read := readUuidText
  write v := v.cast .uuid

@[simp] theorem write_uuidText (v : Value) : uuidText.write v = v.cast .uuid := rfl

/-! ## The general conversion -/

/-- The general conversion between the type in the model and the type stored. -/
def general (model stored : Ty) : Converter where
  read v := v.cast model.core
  write v := v.cast stored.core

end Converter

end RowQuery
