import RowQuery.NamedList
import RowQuery.Rows.Row
import RowQuery.Schema.Table

/-!
# Models

A model says how the rows of a table become instances of a type: how an instance is made,
which properties can be set, which of them get a value that does not come from the row, and
what happens at last.

Main results:

- {lit}`Model.setter?` and {lit}`Model.injected?` look a property up without regard to ASCII
  case.
-/

namespace RowQuery

/-- A constructor: its parameters, each with a name and a type, and what it makes of their
values. -/
structure Constructor (α : Type) where
  parameters : List (String × Ty)
  build : List Value → Except Fault α

/-- Stores a value in a property of an instance. -/
abbrev Setter (α : Type) := α → Value → Except Fault α

/-- How the rows of a table become instances. -/
structure Model (α : Type) where
  typeName : String
  table : Table
  fresh : Option α
  constructors : List (Constructor α)
  setters : List (String × Setter α)
  injected : List (String × Value)
  finish : Option (α → Row → Except Fault α)

namespace Model

variable {α : Type}

/-- The first entry whose name differs at most in ASCII case. -/
def find? {β : Type} (entries : List (String × β)) (name : String) : Option β :=
  (entries.find? fun entry => Text.sameName entry.1 name).map Prod.snd

/-- The setter of a property. -/
def setter? (m : Model α) (property : String) : Option (Setter α) :=
  find? m.setters property

/-- The value of a property that does not come from the row. -/
def injected? (m : Model α) (property : String) : Option Value :=
  find? m.injected property

end Model

/-- A result of one value, which is of a type. -/
structure Scalar where
  typeName : String
  ty : Ty
  deriving DecidableEq

end RowQuery
