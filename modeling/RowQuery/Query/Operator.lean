import RowQuery.Expr.Basic
import RowQuery.Schema.Table

/-!
# Queries

A query takes the rows of one table through a sequence of operators, each applied to what the
one before it gives.

Main results:

- {lit}`Operator.name` names an operator in messages.
-/

namespace RowQuery

namespace Query

/-- The direction of an ordering. -/
inductive Direction where
  | ascending
  | descending
  deriving DecidableEq, Repr

/-- What is computed over all rows. -/
inductive Aggregate where
  | min
  | max
  | sum
  | average
  deriving DecidableEq, Repr

/-- The name of an aggregate as an operator. -/
def Aggregate.name : Aggregate → String
  | min => "Min"
  | max => "Max"
  | sum => "Sum"
  | average => "Average"

/-- The function of SQL that computes an aggregate. -/
def Aggregate.function : Aggregate → String
  | min => "MIN"
  | max => "MAX"
  | sum => "SUM"
  | average => "AVG"

/-- An operator of a query. -/
inductive Operator where
  /-- Keeps the rows that satisfy a condition. -/
  | filter (condition : Expr)
  /-- Orders the rows by a key. -/
  | orderBy (direction : Direction) (key : Expr)
  /-- Orders rows that are equal so far by a further key. -/
  | thenBy (direction : Direction) (key : Expr)
  /-- Leaves out so many rows at the start. -/
  | skip (count : Expr)
  /-- Keeps at most so many rows at the start. -/
  | take (count : Expr)
  /-- Keeps the first row. -/
  | first
  /-- Counts the rows, or those that satisfy a condition. -/
  | count (condition : Option Expr)
  /-- Asks for a row, or one that satisfies a condition. -/
  | any (condition : Option Expr)
  /-- Computes over the values of a key. -/
  | aggregate (function : Aggregate) (key : Expr)
  /-- Replaces each row by a value. -/
  | select (selector : Expr)
  /-- Collects the rows that have a key in common. -/
  | groupBy (key : Expr)

/-- The name of an operator. -/
def Operator.name : Operator → String
  | filter _ => "Where"
  | orderBy .ascending _ => "OrderBy"
  | orderBy .descending _ => "OrderByDescending"
  | thenBy .ascending _ => "ThenBy"
  | thenBy .descending _ => "ThenByDescending"
  | skip _ => "Skip"
  | take _ => "Take"
  | first => "First"
  | count _ => "Count"
  | any _ => "Any"
  | aggregate function _ => function.name
  | select _ => "Select"
  | groupBy _ => "GroupBy"

end Query

/-- A query over a table. -/
structure Query where
  table : Table
  operators : List Query.Operator

end RowQuery
