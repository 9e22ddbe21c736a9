import RowQuery.Schema.Table
import RowQuery.Sql.Condition
import RowQuery.Sql.Dialect
import RowQuery.Sql.Statement

/-!
# Selecting rows

A selection is put together clause by clause, each of which may be given once.  For a dialect
it becomes a plan of the window of rows to return, and from the plan a statement.

Main results:

- {lit}`Select.setFilter` and its companions give a clause and refuse a second one.
- {lit}`Select.paging` chooses how the window is taken; {lit}`Paging.limiter` is the part that
  is left to the reader.
- {lit}`Select.statement` writes the statement.
-/

namespace RowQuery.Sql

/-! ## Clauses -/

/-- A selection. -/
structure Select where
  columns : String
  source : String
  filter : Option Condition
  grouping : Option String
  ordering : Option String
  skip : Option UInt64
  take : Option UInt64
  deriving DecidableEq

namespace Select

/-- The columns of a table; all of them if the table names none. -/
def columnsOf (t : Table) : String :=
  if t.columns.isEmpty then "*" else ", ".intercalate (t.columns.map Column.name)

/-- A selection of columns from a source, without further clauses. -/
def of (columns source : String) : Select :=
  { columns, source, filter := none, grouping := none, ordering := none, skip := none,
    take := none }

/-- A selection of columns from a source as a caller wrote them, each with or without its
keyword.  A part that is not written is taken from the table. -/
def ofParts? (columns source : Option String) (table : Option Table) : Option Select := do
  let columns ← columns.map Clause.columns.strip <|> table.map columnsOf
  let source ← source.map Clause.source.strip <|> table.map Table.name
  return of columns source

/-- Puts a value into a slot that may be filled once. -/
def fillOnce {α : Type} (clause : String) (slot : Option α) (a : α) : Except Fault (Option α) :=
  match slot with
  | none => .ok (some a)
  | some _ => .error (Fault.of (.alreadyConfigured clause))

/-- Gives the condition. -/
def setFilter (s : Select) (c : Condition) : Except Fault Select := do
  return { s with filter := ← fillOnce "WHERE" s.filter c }

/-- Gives the grouping as a caller wrote it, with or without its keyword. -/
def setGrouping (s : Select) (text : String) : Except Fault Select := do
  return { s with grouping := ← fillOnce "GROUP BY" s.grouping (Clause.grouping.strip text) }

/-- Gives the ordering as a caller wrote it, with or without its keyword. -/
def setOrdering (s : Select) (text : String) : Except Fault Select := do
  return { s with ordering := ← fillOnce "ORDER BY" s.ordering (Clause.ordering.strip text) }

/-- Gives the number of rows to leave out. -/
def setSkip (s : Select) (count : UInt64) : Except Fault Select := do
  return { s with skip := ← fillOnce "SKIP" s.skip count }

/-- Gives the greatest number of rows to return. -/
def setTake (s : Select) (count : UInt64) : Except Fault Select := do
  return { s with take := ← fillOnce "TAKE" s.take count }

end Select

/-! ## Windows -/

/-- How the window of rows is taken. -/
inductive Paging where
  /-- The first rows, or all. -/
  | first (count : Option UInt64)
  /-- The first rows, or all, of which the reader keeps a window. -/
  | window (count : Option UInt64) (limiter : RowLimiter)
  /-- The rows whose number, counted from one, is past a bound and not past another. -/
  | numbered (past : UInt64) (upTo : Option UInt64)
  /-- The rows behind a number of rows, or so many of them. -/
  | offset (skip : UInt64) (take : Option UInt64)
  deriving DecidableEq

/-- The window that is left to the reader. -/
def Paging.limiter : Paging → Option RowLimiter
  | window _ limiter => some limiter
  | _ => none

namespace Select

/-- The number of rows up to the end of the window, if it is bounded. -/
def windowEnd (skip : UInt64) (take : Option UInt64) : Except Fault (Option UInt64) :=
  match take with
  | none => .ok none
  | some take =>
    match addCounts? skip take with
    | some total => .ok (some total)
    | none => .error (Fault.invalidQuery .windowOverflow)

/-- How a dialect takes the window of a selection.  To leave out rows needs an ordering. -/
def paging (s : Select) (d : Dialect) : Except Fault Paging :=
  match s.skip with
  | none => .ok (.first s.take)
  | some skip =>
    if s.ordering.isNone then .error (Fault.invalidQuery .skipWithoutOrder)
    else
      match d with
      | .top => do return .window (← windowEnd skip s.take) ⟨skip, s.take⟩
      | .rowNumber => do return .numbered skip (← windowEnd skip s.take)
      | .offsetFetch => .ok (.offset skip s.take)

/-! ## Text -/

/-- The text of a count. -/
def countText (n : UInt64) : String := n.toNat.repr

/-- The columns and the source, behind the number of rows to return. -/
def headText (s : Select) (top : Option UInt64) : String :=
  let count :=
    match top with
    | some n => "TOP " ++ countText n ++ " "
    | none => ""
  Clause.columns.write (count ++ s.columns ++ " " ++ Clause.source.write s.source)

/-- A clause with a blank in front, if it is there. -/
def clauseText (k : Clause) (body : Option String) : String :=
  match body with
  | some text => " " ++ k.write text
  | none => ""

/-- The condition and the grouping. -/
def filterText (s : Select) : String :=
  clauseText .filter (s.filter.map Condition.text) ++ clauseText .grouping s.grouping

/-- The ordering. -/
def orderText (s : Select) : String :=
  clauseText .ordering s.ordering

/-- The name of the column of row numbers. -/
def numberColumn : String := "__RowNum__"

/-- The rows with their numbers, as a named query. -/
def numberedText (s : Select) : String :=
  "WITH Results_CTE AS (" ++
    Clause.columns.write (s.columns ++ ", ROW_NUMBER() OVER (" ++
      Clause.ordering.write (s.ordering.getD "") ++ ") AS " ++ numberColumn ++ " " ++
      Clause.source.write s.source) ++
    s.filterText ++ ") "

/-- The text of a selection whose window is taken in some way. -/
def text (s : Select) : Paging → String
  | .first count => s.headText count ++ s.filterText ++ s.orderText
  | .window count _ => s.headText count ++ s.filterText ++ s.orderText
  | .numbered past upTo =>
    let bound :=
      match upTo with
      | some last => " AND " ++ numberColumn ++ " <= " ++ countText last
      | none => ""
    s.numberedText ++
      Clause.columns.write ("* " ++ Clause.source.write ("Results_CTE " ++
        Clause.filter.write (numberColumn ++ " > " ++ countText past))) ++ bound
  | .offset skip take =>
    let bound :=
      match take with
      | some n => " FETCH NEXT " ++ countText n ++ " ROWS ONLY"
      | none => ""
    s.headText none ++ s.filterText ++ s.orderText ++ " OFFSET " ++ countText skip ++ " ROWS" ++
      bound

/-- The statement of a selection for a dialect. -/
def statement (s : Select) (d : Dialect) : Except Fault Statement := do
  let paging ← s.paging d
  return { text := s.text paging, sources := (s.filter.map Condition.source).toList,
           limiter := paging.limiter }

end Select

end RowQuery.Sql
