import RowQuery.Rows.Cursor
import RowQuery.Sql.Limiter

/-!
# Sequences of results

A sequence makes results from the rows of a cursor, one at a time and only when asked.  Rows
outside of its window are passed over.  At the end of the rows or of the window, after a fault
and when it is closed, it closes the cursor and gives no more results.

Main results:

- {lit}`Sequence.next` gives the next result; the rows it passes over lie in front of the
  window, so it ends.
- {lit}`Sequence.close` closes the cursor unless that was done before.
-/

namespace RowQuery

open Sql (RowLimiter)

/-- A cursor, what is made of each row, and the window to keep.  {lit}`index` counts the rows
that the cursor went to. -/
structure Sequence (σ α : Type) where
  cursor : σ
  build : Row → Except Fault α
  limiter : Option RowLimiter
  index : UInt64
  done : Bool

namespace Sequence

variable {σ α : Type}

/-- A sequence over all rows of a cursor. -/
def ofCursor (cursor : σ) (build : Row → Except Fault α) : Sequence σ α :=
  { cursor, build, limiter := none, index := 0, done := false }

/-- The sequence with a window, or with none. -/
def limit (s : Sequence σ α) (limiter : Option RowLimiter) : Sequence σ α := { s with limiter }

/-- The window lies behind the rows gone to so far. -/
def isPastWindow (s : Sequence σ α) : Bool :=
  match s.limiter with
  | some limiter => limiter.isExhausted s.index
  | none => false

/-- The next row lies in the window. -/
def isInWindow (s : Sequence σ α) : Bool :=
  match s.limiter with
  | some limiter => limiter.admits s.index
  | none => true

/-- The number of rows still in front of the window. -/
def rowsToPass (s : Sequence σ α) : Nat :=
  match s.limiter with
  | some limiter => limiter.skip.toNat - s.index.toNat
  | none => 0

/-- The sequence after its cursor went to a row. -/
def moved (s : Sequence σ α) (cursor : σ) : Sequence σ α :=
  { s with cursor, index := s.index + 1 }

/-- To pass over a row brings the window nearer. -/
theorem rowsToPass_moved {s : Sequence σ α} (cursor : σ) (hpast : ¬s.isPastWindow)
    (hin : ¬s.isInWindow) : (s.moved cursor).rowsToPass < s.rowsToPass := by
  unfold isPastWindow at hpast
  unfold isInWindow at hin
  unfold moved rowsToPass
  cases hlimiter : s.limiter with
  | none => simp [hlimiter] at hin
  | some limiter =>
    simp only [hlimiter, Bool.not_eq_true] at hpast hin
    have hlt := RowLimiter.lt_skip_of_not_admits hpast hin
    rw [UInt64.lt_iff_toNat_lt] at hlt
    have := limiter.skip.toNat_lt
    simp only [UInt64.toNat_add, UInt64.toNat_one]
    omega

variable [Cursor σ]

/-- Closes the cursor unless that was done before. -/
def close (s : Sequence σ α) : Sequence σ α :=
  if s.done then s else { s with done := true, cursor := Cursor.close s.cursor }

/-- The next result, or none at the end, and the sequence behind it. -/
def next (s : Sequence σ α) : Option (Except Fault α) × Sequence σ α :=
  if s.done then (none, s)
  else if s.isPastWindow then (none, s.close)
  else
    match Cursor.advance s.cursor with
    | (.error f, cursor) => (some (.error f), { s with cursor }.close)
    | (.ok false, cursor) => (none, { s with cursor }.close)
    | (.ok true, cursor) =>
      if s.isInWindow then
        let s' := s.moved cursor
        match s.build (Cursor.row cursor) with
        | .ok a => (some (.ok a), s')
        | .error f => (some (.error f), s'.close)
      else
        (s.moved cursor).next
  termination_by s.rowsToPass
  decreasing_by exact rowsToPass_moved cursor ‹_› ‹_›

/-- The results up to the end, at most {lit}`bound` of them. -/
def drain (bound : Nat) (s : Sequence σ α) : List (Except Fault α) × Sequence σ α :=
  match bound with
  | 0 => ([], s)
  | bound + 1 =>
    match s.next with
    | (none, s') => ([], s')
    | (some result, s') =>
      let (results, s'') := s'.drain bound
      (result :: results, s'')

end Sequence

end RowQuery
