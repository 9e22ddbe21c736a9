import RowQuery.NamedList
import RowQuery.Value.Basic

/-!
# Commands

A command holds the text that a database is to run and the parameters that the text names.

Main results:

- {lit}`Command.add` keeps the place of a parameter that is there already.
-/

namespace RowQuery

/-- A text and its named parameters, in the order in which they were added. -/
structure Command where
  text : String
  parameters : List (String × Value)
  deriving DecidableEq

namespace Command

/-- A command without text and parameters. -/
def empty : Command := ⟨"", []⟩

/-- Sets the text. -/
def setText (c : Command) (text : String) : Command := { c with text }

/-- Adds a parameter. -/
def add (c : Command) (name : String) (v : Value) : Command :=
  { c with parameters := NamedList.put name v c.parameters }

/-- The value of a parameter. -/
def get? (c : Command) (name : String) : Option Value :=
  c.parameters.lookup name

end Command

end RowQuery
