import RowQuery.Sql.Select

/-!
# Single nodes

Every node that a caller can hold is a statement of its own: a selection and a query written
by the caller as a whole, and each clause with its keyword in front.

Main results:

- {lit}`Node.statement` writes a node for a dialect.
-/

namespace RowQuery.Sql

/-- A node of a statement. -/
inductive Node where
  | select (s : Select)
  | written (text : String) (values : List Value)
  | filter (c : Condition)
  | grouping (text : String)
  | ordering (text : String)
  | source (text : String)

namespace Node

/-- A whole query as a caller wrote it, with or without its keyword. -/
def ofQueryText (text : String) (values : List Value) : Node :=
  written (Clause.columns.strip text) values

/-- A grouping as a caller wrote it, with or without its keyword. -/
def ofGroupingText (text : String) : Node := grouping (Clause.grouping.strip text)

/-- An ordering as a caller wrote it, with or without its keyword. -/
def ofOrderingText (text : String) : Node := ordering (Clause.ordering.strip text)

/-- A source of rows as a caller wrote it, with or without its keyword. -/
def ofSourceText (text : String) : Node := source (Clause.source.strip text)

/-- The statement of a clause with its keyword. -/
def clauseStatement (k : Clause) (body : String) (sources : List ParameterSource) : Statement :=
  ⟨k.write body, sources, none⟩

/-- The statement of a node for a dialect. -/
def statement (n : Node) (d : Dialect) : Except Fault Statement :=
  match n with
  | select s => s.statement d
  | written text values => .ok (clauseStatement .columns text [⟨text, values⟩])
  | filter c => .ok (clauseStatement .filter c.text [c.source])
  | grouping text => .ok (clauseStatement .grouping text [])
  | ordering text => .ok (clauseStatement .ordering text [])
  | source text => .ok (clauseStatement .source text [])

end Node

end RowQuery.Sql
