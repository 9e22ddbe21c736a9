import RowQuery.Fault
import RowQuery.Text.Blank

/-!
# Dialects

The dialects differ in how they leave out rows at the start of a result.

Main results:

- {lit}`Dialect.ofName` reads the name of a dialect; {lit}`ofName?_name` says that it reads
  the names that {lit}`Dialect.name` gives.
-/

namespace RowQuery.Sql

/-- How rows at the start are left out. -/
inductive Dialect where
  /-- The statement takes them along and the reader leaves them out. -/
  | top
  /-- The rows are numbered and filtered by their number. -/
  | rowNumber
  /-- The statement says how many. -/
  | offsetFetch
  deriving DecidableEq, Repr

namespace Dialect

/-- The name of a dialect. -/
def name : Dialect → String
  | top => "top"
  | rowNumber => "row_number"
  | offsetFetch => "offset_fetch"

/-- The statement itself leaves out rows. -/
def skipsRows (d : Dialect) : Bool := d ≠ top

/-- All names of a dialect. -/
def names : Dialect → List String
  | top => ["top", "sqlserver", "sqlserver2005"]
  | rowNumber => ["row_number", "rownumber", "cte", "sqlserver2008"]
  | offsetFetch => ["offset_fetch", "offsetfetch", "offset", "sqlserver2012"]

/-- The dialect with a name.  ASCII case and blanks around do not matter, and a hyphen or a
space counts as an underscore. -/
def ofName? (text : String) : Option Dialect :=
  let plain := (Text.trim text.toList).map fun c =>
    if c = '-' ∨ c = ' ' then '_' else c.toLower
  [top, rowNumber, offsetFetch].find? fun d => d.names.contains (String.ofList plain)

/-- The dialect with a name, or a fault. -/
def ofName (text : String) : Except Fault Dialect :=
  match ofName? text with
  | some d => .ok d
  | none => .error (Fault.of (.unknownDialect text))

/-- Every dialect is read from its name. -/
theorem ofName?_name (d : Dialect) : ofName? d.name = some d := by
  cases d <;> decide +kernel

end Dialect

end RowQuery.Sql
