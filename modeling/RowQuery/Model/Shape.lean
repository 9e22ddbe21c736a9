import RowQuery.Rows.Row

/-!
# Shapes

A shape says what a factory is compiled from: what kind of result is made, of which type, and
from which fields.  Factories are kept by shape.

Main results:

- {lit}`Shape.of` is the shape of a row as it is read into a type.
- {lit}`Shape.print` is the text whose fingerprint speeds up the search.
-/

namespace RowQuery

/-- What a factory makes of a row. -/
inductive ResultKind where
  | model
  | scalar
  deriving DecidableEq, Repr

/-- The kind and the type of the result, and the name and the native type of each field. -/
structure Shape where
  kind : ResultKind
  typeName : String
  columns : List (String × String)
  deriving DecidableEq

namespace Shape

/-- The shape of rows with these fields. -/
def of (kind : ResultKind) (typeName : String) (fields : List Field) : Shape :=
  ⟨kind, typeName, fields.map fun f => (f.name, f.nativeType)⟩

/-- The type and all columns written one behind the other.  Different shapes may have the same
print. -/
def print (s : Shape) : String :=
  s.columns.foldl (fun text (name, nativeType) => text ++ name ++ nativeType) s.typeName

end Shape

end RowQuery
