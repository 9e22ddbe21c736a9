import RowQuery.Sql.Limiter
import RowQuery.Sql.Placeholder

/-!
# Statements

A statement is a text that is ready to run, the values of its placeholders, and the window
that is left to the reader.

Main results:

- {lit}`Statement.bind` puts the text and the values into a command.
-/

namespace RowQuery.Sql

/-- A statement. -/
structure Statement where
  text : String
  sources : List ParameterSource
  limiter : Option RowLimiter
  deriving DecidableEq

namespace Statement

/-- All values, source by source. -/
def values (s : Statement) : List Value :=
  s.sources.flatMap ParameterSource.values

/-- Sets the text of a command and adds the value of each placeholder. -/
def bind (s : Statement) (c : Command) : Command :=
  Sql.bind s.text s.sources (c.setText s.text)

end Statement

end RowQuery.Sql
