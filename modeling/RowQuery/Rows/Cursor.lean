import RowQuery.Rows.Row

/-!
# Cursors

A cursor goes through the rows of a result set once, from the first to the last, and is
closed when it is no longer needed.  One kind of cursor holds its rows in memory; another
counts what is done to a cursor inside.

Main results:

- {lit}`Cursor` is what a cursor can do.
- {lit}`MemoryCursor` holds its rows in memory, {lit}`Counted` counts the calls.
-/

namespace RowQuery

/-- What a cursor can do: go to the next row, which says whether there is one, be closed, and
show the row where it stands. -/
class Cursor (σ : Type) where
  advance : σ → Except Fault Bool × σ
  close : σ → σ
  row : σ → Row

/-! ## Rows in memory -/

/-- A result set held in memory.  It stands before the first row until it is advanced; it
reports a fault when it would come to the row {lit}`failAt`. -/
structure MemoryCursor where
  fields : List Field
  rows : List (List Value)
  failAt : Option Nat
  position : Option Nat
  closed : Bool
  releases : Nat

namespace MemoryCursor

/-- A cursor before its first row. -/
def ofRows (fields : List Field) (rows : List (List Value)) (failAt : Option Nat) :
    MemoryCursor :=
  { fields, rows, failAt, position := none, closed := false, releases := 0 }

/-- The values of the row where the cursor stands. -/
def current (c : MemoryCursor) : Except Fault (List Value) :=
  if c.closed then .error (Fault.of (.row .closed))
  else
    match c.position with
    | none => .error (Fault.of (.row .notPositioned))
    | some position =>
      match c.rows[position]? with
      | some values => .ok values
      | none => .error (Fault.of (.row .exhausted))

/-- The value at an ordinal.  Values that a row leaves out at its end are null. -/
def valueAt (c : MemoryCursor) (ordinal : Nat) : Except Fault Value :=
  if ordinal < c.fields.length then c.current.map fun values => values.getD ordinal .null
  else .error (Fault.of (.row (.ordinal ordinal)))

/-- The index of the row that comes next. -/
def next (c : MemoryCursor) : Nat :=
  match c.position with
  | none => 0
  | some position => position + 1

/-- Goes to the next row.  A closed cursor has none; a faulty row leaves the cursor where it
stands. -/
def advance (c : MemoryCursor) : Except Fault Bool × MemoryCursor :=
  if c.closed then (.ok false, c)
  else if c.failAt = some c.next then (.error (Fault.of (.row (.unreadable c.next))), c)
  else
    (.ok (c.next < c.rows.length), { c with position := some (min c.next c.rows.length) })

/-- Closes the cursor, which releases its rows the first time. -/
def close (c : MemoryCursor) : MemoryCursor :=
  if c.closed then c else { c with closed := true, releases := c.releases + 1 }

/-- The row that the cursor shows. -/
def row (c : MemoryCursor) : Row := ⟨c.fields, c.valueAt⟩

instance : Cursor MemoryCursor := ⟨advance, close, row⟩

end MemoryCursor

/-! ## Counting -/

/-- A cursor and how often it was advanced and closed. -/
structure Counted (σ : Type) where
  inner : σ
  advances : Nat
  closes : Nat

namespace Counted

variable {σ : Type} [Cursor σ]

/-- A cursor with nothing counted yet. -/
def ofCursor (c : σ) : Counted σ := ⟨c, 0, 0⟩

instance : Cursor (Counted σ) where
  advance c :=
    let (answer, inner) := Cursor.advance c.inner
    (answer, { c with inner, advances := c.advances + 1 })
  close c := { c with inner := Cursor.close c.inner, closes := c.closes + 1 }
  row c := Cursor.row c.inner

end Counted

end RowQuery
