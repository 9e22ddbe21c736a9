/-!
# Windows on the reader's side

When the database cannot skip rows, the reader does.  A window leaves out the first rows and
admits at most a number of those behind them.

Main results:

- {lit}`RowLimiter.admits` says whether a row lies in the window and
  {lit}`RowLimiter.isExhausted` whether the window lies behind.
- {lit}`lt_skip_of_not_admits` says that a row is left out only in front of the window.
-/

namespace RowQuery.Sql

/-- The greatest count. -/
def maxCount : UInt64 := 18446744073709551615

/-- The sum of two counts, if it is a count of 64 bits. -/
def addCounts? (a b : UInt64) : Option UInt64 :=
  if a.toNat + b.toNat ≤ maxCount.toNat then some (a + b) else none

/-- The sum of two counts, or the greatest count if the sum is greater. -/
def addCountsUpTo (a b : UInt64) : UInt64 :=
  (addCounts? a b).getD maxCount

theorem toNat_maxCount : maxCount.toNat = 18446744073709551615 := rfl

/-- The size of a capped sum. -/
theorem toNat_addCountsUpTo (a b : UInt64) :
    (addCountsUpTo a b).toNat = min (a.toNat + b.toNat) maxCount.toNat := by
  unfold addCountsUpTo addCounts?
  split
  · rename_i h
    rw [toNat_maxCount] at h
    rw [Option.getD_some, UInt64.toNat_add, toNat_maxCount, Nat.min_eq_left h]
    exact Nat.mod_eq_of_lt (by omega)
  · rename_i h
    rw [Option.getD_none, Nat.min_eq_right (by omega)]

/-- A window: the rows to leave out, and how many to admit behind them if there is a bound. -/
structure RowLimiter where
  skip : UInt64
  take : Option UInt64
  deriving DecidableEq

namespace RowLimiter

/-- The row at an index, counted from zero, lies in the window. -/
def admits (l : RowLimiter) (index : UInt64) : Bool :=
  l.skip ≤ index &&
    match l.take with
    | none => true
    | some take => index - l.skip < take

/-- The index has come to the end of the window, or to the greatest count if the end is past it. -/
def isExhausted (l : RowLimiter) (index : UInt64) : Bool :=
  match l.take with
  | none => false
  | some take => addCountsUpTo l.skip take ≤ index

/-- A row lies in the window if it does not lie in front of it, nor at its end or behind. -/
theorem admits_iff {l : RowLimiter} {index : UInt64} :
    l.admits index = true ↔ l.skip.toNat ≤ index.toNat ∧
      ∀ take, l.take = some take → index.toNat < l.skip.toNat + take.toNat := by
  unfold admits
  rw [Bool.and_eq_true, decide_eq_true_eq, UInt64.le_iff_toNat_le]
  refine and_congr_right fun hskip => ?_
  cases l.take with
  | none => simp
  | some take =>
    have hsub : (index - l.skip).toNat = index.toNat - l.skip.toNat :=
      UInt64.toNat_sub_of_le _ _ (UInt64.le_iff_toNat_le.2 hskip)
    simp only [decide_eq_true_eq, UInt64.lt_iff_toNat_lt, hsub, Option.some.injEq, forall_eq']
    omega

/-- The window lies behind an index if its end is not past it, where an end past the greatest count
stands for that count. -/
theorem isExhausted_iff {l : RowLimiter} {index : UInt64} :
    l.isExhausted index = true ↔ ∃ take, l.take = some take ∧
      min (l.skip.toNat + take.toNat) maxCount.toNat ≤ index.toNat := by
  unfold isExhausted
  cases l.take with
  | none => simp
  | some take => simp [UInt64.le_iff_toNat_le, toNat_addCountsUpTo]

/-- A row that is left out while the window is not yet behind lies in front of the window. -/
theorem lt_skip_of_not_admits {l : RowLimiter} {index : UInt64}
    (hexhausted : l.isExhausted index = false) (hadmits : l.admits index = false) :
    index < l.skip := by
  rw [UInt64.lt_iff_toNat_lt]
  refine Nat.lt_of_not_le fun hskip => Bool.eq_false_iff.1 hadmits (admits_iff.2 ⟨hskip, ?_⟩)
  intro take htake
  have hend : ¬ min (l.skip.toNat + take.toNat) maxCount.toNat ≤ index.toNat := fun hle =>
    Bool.eq_false_iff.1 hexhausted (isExhausted_iff.2 ⟨take, htake, hle⟩)
  omega

end RowLimiter

end RowQuery.Sql
