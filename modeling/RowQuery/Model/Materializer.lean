import RowQuery.Model.Cache
import RowQuery.Model.Factory
import RowQuery.Model.Sequence
import RowQuery.Model.Shape

/-!
# Materializing rows

A materializer turns rows into results.  It compiles a factory for each shape of rows that it
meets and keeps it for later rows of that shape.

Main results:

- {lit}`Materializer.materialize` gives the results of a cursor one at a time; it closes the
  cursor if there is no factory.
- {lit}`Materializer.read` gives the result of a single row.
-/

namespace RowQuery

/-! ## Targets -/

/-- What rows are turned into. -/
inductive Target (α : Type) where
  | model (m : Model α)
  | scalar (s : Scalar)

/-- A result. -/
inductive Item (α : Type) where
  | instance (a : α)
  | scalar (v : Value)

/-- A factory of results. -/
inductive Factory (α : Type) where
  | model (f : ModelFactory α)
  | scalar (f : ScalarFactory)

variable {α σ : Type}

/-- The kind of result. -/
def Target.kind : Target α → ResultKind
  | model _ => .model
  | scalar _ => .scalar

/-- The name of the type of result. -/
def Target.typeName : Target α → String
  | model m => m.typeName
  | scalar s => s.typeName

/-- The factory of a target for rows with these fields. -/
def Factory.compile (t : Target α) (fields : List Field) : Except Fault (Factory α) :=
  match t with
  | .model m => (ModelFactory.compile m fields).map model
  | .scalar s => (ScalarFactory.compile s fields).map scalar

/-- The result of a row. -/
def Factory.build (f : Factory α) (r : Row) : Except Fault (Item α) :=
  match f with
  | model f => (f.build r).map .instance
  | scalar f => (f.build r).map .scalar

/-! ## Materializers -/

/-- A materializer holds the factories compiled so far. -/
structure Materializer (α : Type) where
  cache : Cache Shape (Factory α)

namespace Materializer

/-- A materializer without factories, which looks for shapes by fingerprints of their
prints. -/
def empty (fingerprint : String → UInt64) : Materializer α :=
  ⟨Cache.empty fun shape => fingerprint shape.print⟩

/-- The factory of a target for rows with these fields. -/
def factory (m : Materializer α) (t : Target α) (fields : List Field) :
    Except Fault (Factory α) × Materializer α :=
  let (answer, cache) :=
    m.cache.getOrBuild (Shape.of t.kind t.typeName fields) fun _ => Factory.compile t fields
  (answer, ⟨cache⟩)

/-- The results of a cursor, or a fault and the closed cursor. -/
def materialize [Cursor σ] (m : Materializer α) (t : Target α) (cursor : σ) :
    Except (Fault × σ) (Sequence σ (Item α)) × Materializer α :=
  match m.factory t (Cursor.row cursor).fields with
  | (.ok f, m') => (.ok (Sequence.ofCursor cursor f.build), m')
  | (.error e, m') => (.error (e, Cursor.close cursor), m')

/-- The result of a row. -/
def read (m : Materializer α) (t : Target α) (r : Row) : Except Fault (Item α) × Materializer α :=
  match m.factory t r.fields with
  | (.ok f, m') => (f.build r, m')
  | (.error e, m') => (.error e, m')

/-- How often factories of a model were compiled, with or without success. -/
def compilations (m : Materializer α) (typeName : String) : Nat :=
  m.cache.attempts.countP fun shape => shape.kind = .model ∧ shape.typeName = typeName

end Materializer

end RowQuery
