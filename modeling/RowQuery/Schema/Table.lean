import RowQuery.Schema.Converter

/-!
# Tables

A table has columns, each of which holds one property of a model.  Columns are looked up by
the name of the column or of the property without regard to ASCII case; the first that fits
counts.

Main results:

- {lit}`Table.byProperty?` and {lit}`Table.byName?` look a column up.
- {lit}`Table.primaryKey` lists the key columns in the order of the key.
-/

namespace RowQuery

/-- Who supplies the values of a column. -/
inductive Generation where
  | application
  | identity
  | computed
  deriving DecidableEq, Repr

/-- A column of a table. -/
structure Column where
  name : String
  property : String
  ty : Ty
  keyPosition : Option Nat
  converter : Option Converter
  generation : Generation

namespace Column

/-- The column is part of the primary key. -/
def isPrimaryKey (c : Column) : Bool := c.keyPosition.isSome

/-- The database supplies the values of the column. -/
def isGenerated (c : Column) : Bool := c.generation ≠ .application

end Column

/-- A table and its columns, in the order of their declaration. -/
structure Table where
  name : String
  columns : List Column

namespace Table

/-- The first column that holds a property. -/
def byProperty? (t : Table) (property : String) : Option Column :=
  t.columns.find? fun c => Text.sameName c.property property

/-- The first column with a name. -/
def byName? (t : Table) (name : String) : Option Column :=
  t.columns.find? fun c => Text.sameName c.name name

/-- The column of a member: the one that holds such a property, else the one of that name. -/
def ofMember? (t : Table) (member : String) : Option Column :=
  (t.byProperty? member).or (t.byName? member)

/-- The column of a field: the one of that name, else the one that holds such a property. -/
def ofField? (t : Table) (field : String) : Option Column :=
  (t.byName? field).or (t.byProperty? field)

/-- The key columns in the order of their key positions; columns of one position keep the
order of their declaration. -/
def primaryKey (t : Table) : List Column :=
  (t.columns.filter Column.isPrimaryKey).mergeSort fun a b =>
    a.keyPosition.getD 0 ≤ b.keyPosition.getD 0

end Table

end RowQuery
