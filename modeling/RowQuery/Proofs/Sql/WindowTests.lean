import RowQuery.Sql.Limiter

/-!
# The two tests of a window

The reader asks two things of an index: whether the window lies behind it, and whether the row there
lies in the window.  The first test adds and caps the sum, the second one subtracts.  This module
compares them with each other over all words.

Main results:

- Theorem {lit}`admits?_eq`: the subtraction never goes below zero.
- Theorem {lit}`differs_iff`: the tests disagree at the greatest index of a window that ends
  past it, and nowhere else.
- Theorem {lit}`testsAgree`: all of it together.
-/

namespace RowQuery.Sql

/-- The difference of two counts, if it is a count. -/
def subCounts? (a b : UInt64) : Option UInt64 :=
  if b ≤ a then some (a - b) else none

namespace RowLimiter

variable {l : RowLimiter} {i j : UInt64}

/-! ## Subtraction -/

/-- Whether the row at an index lies in the window, where a difference below zero has no answer.
The other test subtracts nothing. -/
def admits? (l : RowLimiter) (index : UInt64) : Option Bool :=
  if l.skip ≤ index then
    match l.take with
    | none => some true
    | some take => (subCounts? index l.skip).map fun behind => decide (behind < take)
  else some false

/-- The subtraction is only made where it does not go below zero. -/
theorem admits?_eq (l : RowLimiter) (i : UInt64) : l.admits? i = some (l.admits i) := by
  unfold admits? admits
  by_cases hskip : l.skip ≤ i
  · rw [if_pos hskip, decide_eq_true hskip, Bool.true_and, subCounts?, if_pos hskip]
    cases l.take <;> rfl
  · rw [if_neg hskip, decide_eq_false hskip, Bool.false_and]

/-! ## One test against the other -/

/-- The end of the window is past the greatest count. -/
def EndsBeyond (l : RowLimiter) : Prop :=
  ∃ take, l.take = some take ∧ maxCount.toNat < l.skip.toNat + take.toNat

/-- Where the window is said to lie behind, no row from there on lies in it. -/
def StaysBehind (l : RowLimiter) : Prop :=
  ∀ i j : UInt64, l.isExhausted i = true → i ≤ j → l.admits j = false

/-- A row lies in a window that is said to lie behind only if it is the last one of all that can be
counted, and the window ends past it. -/
theorem differs_iff : (l.isExhausted i = true ∧ i ≤ j ∧ l.admits j = true) ↔
    l.EndsBeyond ∧ i = maxCount ∧ j = maxCount := by
  rw [isExhausted_iff, admits_iff, UInt64.le_iff_toNat_le, ← UInt64.toNat_inj, ← UInt64.toNat_inj]
  have hj : j.toNat ≤ maxCount.toNat := Nat.le_of_lt_succ j.toNat_lt
  have hskip : l.skip.toNat ≤ maxCount.toNat := Nat.le_of_lt_succ l.skip.toNat_lt
  constructor
  · rintro ⟨⟨take, htake, hend⟩, hle, -, hinside⟩
    have hlt := hinside take htake
    refine ⟨⟨take, htake, ?_⟩, ?_⟩ <;> omega
  · rintro ⟨⟨take, htake, hpast⟩, hi, hlast⟩
    refine ⟨⟨take, htake, ?_⟩, ?_, ?_, fun take' htake' => ?_⟩
    · omega
    · omega
    · omega
    · cases htake.symm.trans htake'
      omega

/-- No row behind the window lies in it exactly if the window does not end
past the greatest count. -/
theorem staysBehind_iff : l.StaysBehind ↔ ¬ l.EndsBeyond := by
  constructor
  · intro hbehind hbeyond
    obtain ⟨hexhausted, hle, hadmits⟩ := differs_iff.2 ⟨hbeyond, rfl, rfl⟩
    rw [hbehind maxCount maxCount hexhausted hle] at hadmits
    cases hadmits
  · intro hbeyond i j hexhausted hle
    exact Bool.eq_false_iff.2 fun hadmits =>
      hbeyond (differs_iff.1 ⟨hexhausted, hle, hadmits⟩).1

/-- As long as a window that is not empty does not lie behind, some row is still to come: the one at
the index, or the first of the window. -/
theorem exists_admits (hempty : l.take ≠ some 0) (hexhausted : l.isExhausted i = false) :
    ∃ j, i ≤ j ∧ l.admits j = true := by
  have hahead : ∀ take, l.take = some take →
      i.toNat < l.skip.toNat + take.toNat ∧ 0 < take.toNat := by
    intro take htake
    have hend : ¬ min (l.skip.toNat + take.toNat) maxCount.toNat ≤ i.toNat := fun hle =>
      Bool.eq_false_iff.1 hexhausted (isExhausted_iff.2 ⟨take, htake, hle⟩)
    have hzero : take.toNat ≠ 0 := fun hzero =>
      hempty (htake.trans (congrArg some (UInt64.toNat_inj.1 hzero)))
    omega
  rcases Nat.le_total l.skip.toNat i.toNat with hskip | hfront
  · exact ⟨i, UInt64.le_refl i, admits_iff.2 ⟨hskip, fun take htake => (hahead take htake).1⟩⟩
  · refine ⟨l.skip, UInt64.le_iff_toNat_le.2 hfront,
      admits_iff.2 ⟨Nat.le_refl _, fun take htake => ?_⟩⟩
    have hpositive := (hahead take htake).2
    omega

/-! ## The whole -/

/-- How the two tests of a window go together. -/
structure TestsAgree (l : RowLimiter) : Prop where
  /-- Where the window is said to lie behind, no row from there on lies in it, exactly if it does
  not end past the greatest count. -/
  behind_iff : l.StaysBehind ↔ ¬ l.EndsBeyond
  /-- Otherwise this fails for the greatest index, and for no other. -/
  differs : ∀ i j, (l.isExhausted i = true ∧ i ≤ j ∧ l.admits j = true) ↔
    l.EndsBeyond ∧ i = maxCount ∧ j = maxCount
  /-- Where a window that is not empty is said not to lie behind, some row
  from there on lies in it. -/
  ahead : ∀ i, l.take ≠ some 0 → l.isExhausted i = false → ∃ j, i ≤ j ∧ l.admits j = true
  /-- No difference goes below zero. -/
  subtracts : ∀ i, l.admits? i = some (l.admits i)

/-- The tests of every window. -/
theorem testsAgree (l : RowLimiter) : TestsAgree l :=
  ⟨staysBehind_iff, fun _ _ => differs_iff, fun _ => exists_admits, l.admits?_eq⟩

/-- A window of the last row that can be counted: it lies in the window, which
is said to lie behind. -/
theorem lastRow_admitted :
    (⟨maxCount, some 1⟩ : RowLimiter).isExhausted maxCount = true ∧
      (⟨maxCount, some 1⟩ : RowLimiter).admits maxCount = true ∧
      ¬ (⟨maxCount, some 1⟩ : RowLimiter).StaysBehind := by
  refine ⟨by decide, by decide, fun hbehind => ?_⟩
  exact absurd (hbehind maxCount maxCount (by decide) (by decide)) (by decide)

end RowLimiter

end RowQuery.Sql
