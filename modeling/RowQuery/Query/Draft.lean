import RowQuery.Expr.Fold
import RowQuery.Query.Operator
import RowQuery.Sql.Recording
import RowQuery.Sql.Select

/-!
# Statements of queries

The operators of a query are gathered one by one into a draft of a single selection: one
condition, one list of keys, one window, and at most one terminal that says what is asked of
the rows.  What such a selection cannot say is refused.

Main results:

- {lit}`Draft.apply` adds one operator to a draft.
- {lit}`Draft.statement` makes the statement of a draft for a dialect.
- {lit}`Query.statement` does both for a whole query.
-/

namespace RowQuery.Query

open Sql

/-! ## Drafts -/

/-- What is asked of the rows in place of the rows themselves. -/
inductive Terminal where
  | count
  | any
  | aggregate (function : Aggregate) (key : String)
  deriving DecidableEq

/-- The name of the operator behind a terminal. -/
def Terminal.name : Terminal → String
  | count => "Count"
  | any => "Any"
  | aggregate function _ => function.name

/-- A selection that is being gathered.  {lit}`values` holds the constants recorded for all
placeholders so far, and {lit}`keys` the texts of the ordering keys, the first declared
first. -/
structure Draft where
  values : List Value
  filter : Option Condition
  keys : List String
  skip : Option UInt64
  take : Option UInt64
  terminal : Option Terminal

namespace Draft

/-- Nothing gathered yet. -/
def empty : Draft :=
  { values := [], filter := none, keys := [], skip := none, take := none, terminal := none }

/-! ## Expressions -/

/-- The term of a folded expression without constants recorded before, and the constants that
it records. -/
def termAlone (table : Table) (e : Expr) : Except Fault (Term × List Value) := do
  (Term.ofExpr table (← e.foldLocal)).run []

/-- The text of a key.  A key may not record a constant. -/
def keyText (table : Table) (operator : String) (key : Expr) : Except Fault String := do
  let (t, recorded) ← termAlone table key
  if recorded.isEmpty then return t.text
  else throw (Fault.unsupported (.overConstant operator))

/-- The number of rows that an expression stands for.  It is read from the only constant that
the expression records. -/
def countOf (table : Table) (e : Expr) : Except Fault UInt64 := do
  match (← termAlone table e).2 with
  | [v] => v.count
  | _ => throw (Fault.invalidQuery .countNotConstant)

/-- The number of rows that an operator names, its fault under the name of the operator. -/
def operatorCount (table : Table) (operator : String) (e : Expr) : Except Fault UInt64 :=
  (countOf table e).mapError fun f => f.context (.unsupported (.named operator))

/-! ## Operators -/

/-- Adds a condition that has to hold as well. -/
def addFilter (table : Table) (condition : Expr) (d : Draft) : Except Fault Draft := do
  let (t, values) ← (Term.ofCondition table (← condition.foldLocal)).run d.values
  let added : Condition := ⟨t.text, values.drop d.values.length⟩
  let filter :=
    match d.filter with
    | some earlier => earlier.and added
    | none => added
  return { d with values, filter := some filter }

/-- Adds a condition if there is one. -/
def addFilter? (table : Table) (condition : Option Expr) (d : Draft) : Except Fault Draft :=
  match condition with
  | some e => d.addFilter table e
  | none => .ok d

/-- Adds an ordering key behind those that are there. -/
def addKey (table : Table) (operator : String) (direction : Direction) (key : Expr) (d : Draft) :
    Except Fault Draft := do
  let text ← keyText table operator key
  let text :=
    match direction with
    | .ascending => text
    | .descending => text ++ " DESC"
  return { d with keys := d.keys ++ [text] }

/-- Leaves out more rows.  Rows cannot be left out once the number of rows is bounded. -/
def addSkip (table : Table) (count : Expr) (d : Draft) : Except Fault Draft := do
  let n ← operatorCount table "Skip" count
  if d.take.isSome then throw (Fault.unsupported .skipAfterTake)
  return { d with skip := some (addCountsUpTo (d.skip.getD 0) n) }

/-- Bounds the number of rows; the least bound counts. -/
def bound (n : UInt64) (d : Draft) : Draft :=
  { d with take := some (match d.take with | some m => min m n | none => n) }

/-- Adds an operator to a draft without a terminal. -/
def addOperator (table : Table) (op : Operator) (d : Draft) : Except Fault Draft :=
  match op with
  | .filter condition => d.addFilter table condition
  | .orderBy direction key => d.addKey table op.name direction key
  | .thenBy direction key =>
    if d.keys.isEmpty then .error (Fault.invalidQuery (.orderMissing op.name))
    else d.addKey table op.name direction key
  | .skip count => d.addSkip table count
  | .take count => do return d.bound (← operatorCount table "Take" count)
  | .first => .ok (d.bound 1)
  | .count condition => do
    return { ← d.addFilter? table condition with terminal := some .count }
  | .any condition => do
    return { ← d.addFilter? table condition with terminal := some .any }
  | .aggregate function key => do
    let text ← keyText table op.name key
    return { d with terminal := some (.aggregate function text) }
  | .select _ => .error (Fault.unsupported (.afterProjection op.name))
  | .groupBy _ => .error (Fault.unsupported (.afterProjection op.name))

/-- Adds an operator.  Nothing can follow a terminal. -/
def apply (table : Table) (d : Draft) (op : Operator) : Except Fault Draft :=
  match d.terminal with
  | some terminal => .error (Fault.unsupported (.afterTerminal op.name terminal.name))
  | none => d.addOperator table op

/-! ## Statements -/

/-- What is selected for a terminal, or all columns without one. -/
def columns (table : Table) (d : Draft) : String :=
  match d.terminal with
  | none => Select.columnsOf table
  | some .count => "COUNT(*)"
  | some .any => "''"
  | some (.aggregate function key) => function.function ++ "(" ++ key ++ ")"

/-- A bound on the number of rows without rows left out bounds the result and not the rows that
are counted or computed over. -/
def boundsResult (d : Draft) : Bool :=
  d.skip.isNone && d.take.isSome &&
    match d.terminal with
    | some .count => true
    | some (.aggregate _ _) => true
    | _ => false

/-- The ordering matters: the rows themselves are asked for, or a window of them. -/
def ordersRows (d : Draft) : Bool :=
  !d.keys.isEmpty && (d.terminal.isNone || d.skip.isSome || d.take.isSome)

/-- The selection that a draft has gathered. -/
def select (table : Table) (d : Draft) : Select :=
  { columns := d.columns table
    source := table.name
    filter := d.filter
    grouping := none
    ordering := if d.ordersRows then some (", ".intercalate d.keys) else none
    skip := d.skip
    take := d.take }

/-- A question for a row, as a statement that answers with one or zero. -/
def existsText (text : String) : String :=
  "SELECT (CASE WHEN EXISTS(" ++ text ++ ") THEN 1 ELSE 0 END)"

/-- Asks of a selection what the terminal asks.  A window cannot be left to the reader then. -/
def close (terminal : Terminal) (dialect : Dialect) (s : Statement) : Except Fault Statement :=
  if s.limiter.isSome then
    .error (Fault.unsupported (.skipOnDialect terminal.name dialect.name))
  else
    match terminal with
    | .any => .ok { s with text := existsText s.text }
    | _ => .ok s

/-- The statement of a draft for a dialect. -/
def statement (table : Table) (dialect : Dialect) (d : Draft) : Except Fault Statement :=
  match d.terminal with
  | none => (d.select table).statement dialect
  | some terminal => do
    if d.boundsResult then throw (Fault.unsupported (.takeWithoutSkip terminal.name))
    close terminal dialect (← (d.select table).statement dialect)

end Draft

/-! ## Queries -/

/-- The draft that the operators of a query gather. -/
def draft (q : Query) : Except Fault Draft :=
  q.operators.foldlM (Draft.apply q.table) Draft.empty

/-- The statement of a query for a dialect. -/
def statement (q : Query) (dialect : Sql.Dialect) : Except Fault Sql.Statement := do
  (← q.draft).statement q.table dialect

end RowQuery.Query
