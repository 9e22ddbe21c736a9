import RowQuery.Sql.Clause
import RowQuery.Sql.Placeholder

/-!
# Conditions

The condition of a statement is a text with the values of its placeholders, in the order in
which the placeholders first occur.

Main results:

- {lit}`Condition.and` and {lit}`Condition.or` join two conditions, each in parentheses.
-/

namespace RowQuery.Sql

/-- A condition on rows. -/
structure Condition where
  text : String
  values : List Value
  deriving DecidableEq

namespace Condition

/-- A condition as a caller wrote it, with or without its keyword. -/
def written (text : String) (values : List Value) : Condition :=
  ⟨Clause.filter.strip text, values⟩

/-- Two conditions joined by a connective, the values of the left one first. -/
def join (op : Connective) (a b : Condition) : Condition :=
  ⟨"(" ++ a.text ++ ") " ++ op.sql ++ " (" ++ b.text ++ ")", a.values ++ b.values⟩

/-- Both conditions hold. -/
def and (a b : Condition) : Condition := join .and a b

/-- One of the conditions holds. -/
def or (a b : Condition) : Condition := join .or a b

/-- The condition as a source of parameters. -/
def source (c : Condition) : ParameterSource := ⟨c.text, c.values⟩

end Condition

end RowQuery.Sql
