import Mathlib.Logic.ExistsUnique
import RowQuery.Expr.Eval
import RowQuery.Proofs.Value.CoherentOrder

/-!
# Comparisons of constants

An expression that compares two constants is evaluated from their order where they have one.
Where they have none, equality still has an answer, and the other comparisons are false beside
null and fail otherwise.  This module says so for the evaluator, and puts it together with
what holds of the order.

Main results:

- Theorem {lit}`evalConst_compare`: the value of a comparison is that of the values of its operands.
- Theorem {lit}`testsCoherently`: the six comparisons of two operands fit together.
- Theorem {lit}`Value.comparesCoherently`: the order, equality and the evaluator in one statement.
-/

namespace RowQuery

/-! ## One comparison -/

namespace Value

variable {a b : Value}

/-- The comparisons that ask for an order. -/
def orderings : List Comparison := [.lt, .le, .gt, .ge]

/-- On values that are comparable every comparison says what their order says. -/
theorem test_of_compare? {o : Ordering} (h : a.compare? b = some o) (op : Comparison) :
    test op a b = .ok (holds op o) := by
  cases op with
  | eq | ne => rw [test, looseEq_of_compare? h, holds]
  | ge | gt | le | lt => rw [test, testOrder, h] <;> exact nofun

/-- On values that are not comparable an ordering is false if one of them is
null, and else a fault. -/
theorem test_of_compare?_eq_none {op : Comparison} (hop : op ∈ orderings)
    (h : a.compare? b = none) :
    test op a b = if a.isNull || b.isNull then .ok false
      else .error (Fault.evaluation (.notComparable a.ty b.ty)) := by
  simp only [orderings, List.mem_cons, List.not_mem_nil, or_false] at hop
  rcases hop with rfl | rfl | rfl | rfl <;> rw [test, testOrder, h] <;> exact nofun

/-- Beside null there is no order. -/
theorem compare?_of_isNull (h : a.isNull = true ∨ b.isNull = true) : a.compare? b = none := by
  cases hab : a.compare? b with
  | none => rfl
  | some o =>
    obtain ⟨ha, hb⟩ := isNull_of_compare? hab
    simp [ha, hb] at h

end Value

/-! ## Comparisons as expressions -/

namespace Expr

/-- What the comparison of two expressions evaluates to. -/
def tested (op : Comparison) (lhs rhs : Expr) : Except Fault Value :=
  (binary (.compare op) lhs rhs).evalConst

variable {lhs rhs : Expr} {a b : Value}

/-- A comparison of two expressions tests their values. -/
theorem evalConst_compare (hlhs : lhs.evalConst = .ok a) (hrhs : rhs.evalConst = .ok b)
    (op : Comparison) : tested op lhs rhs = (Value.test op a b).map .bool := by
  rw [evalConst] at hlhs hrhs
  rw [tested, evalConst, eval, hlhs, hrhs]
  rfl

/-- How the six comparisons of two operands with these values fit together. -/
structure TestsCoherently (lhs rhs : Expr) (a b : Value) : Prop where
  /-- Of values that are comparable, exactly one of less, equal and greater is true. -/
  oneHolds : (a.compare? b).isSome = true →
    ∃! op, op ∈ [Comparison.lt, .eq, .gt] ∧ tested op lhs rhs = .ok (.bool true)
  /-- Of values that are comparable, at most is less or equal. -/
  atMost : (a.compare? b).isSome = true → ∃ less equal : Bool,
    tested .lt lhs rhs = .ok (.bool less) ∧ tested .eq lhs rhs = .ok (.bool equal) ∧
      tested .le lhs rhs = .ok (.bool (less || equal))
  /-- Of values that are comparable, at least is greater or equal. -/
  atLeast : (a.compare? b).isSome = true → ∃ greater equal : Bool,
    tested .gt lhs rhs = .ok (.bool greater) ∧ tested .eq lhs rhs = .ok (.bool equal) ∧
      tested .ge lhs rhs = .ok (.bool (greater || equal))
  /-- Different is the opposite of equal, whatever the values. -/
  differs : ∃ equal : Bool,
    tested .eq lhs rhs = .ok (.bool equal) ∧ tested .ne lhs rhs = .ok (.bool !equal)
  /-- Beside null no ordering is true. -/
  besideNull : a.isNull = true ∨ b.isNull = true →
    ∀ op ∈ Value.orderings, tested op lhs rhs = .ok (.bool false)
  /-- Of values without an order, neither of them null, the orderings fail and equality is false. -/
  withoutOrder : a.compare? b = none → a.isNull = false → b.isNull = false →
    (∀ op ∈ Value.orderings,
      tested op lhs rhs = .error (Fault.evaluation (.notComparable a.ty b.ty))) ∧
      tested .eq lhs rhs = .ok (.bool false)

/-- Exactly one of the three ways in which values can stand to each other is true. -/
theorem existsUnique_holds (o : Ordering) :
    ∃! op, op ∈ [Comparison.lt, .eq, .gt] ∧ Value.holds op o = true := by
  cases o with
  | lt => exact ⟨.lt, by decide, by rintro (_ | _) <;> decide⟩
  | eq => exact ⟨.eq, by decide, by rintro (_ | _) <;> decide⟩
  | gt => exact ⟨.gt, by decide, by rintro (_ | _) <;> decide⟩

/-- The comparisons of two operands that have values fit together. -/
theorem testsCoherently (hlhs : lhs.evalConst = .ok a) (hrhs : rhs.evalConst = .ok b) :
    TestsCoherently lhs rhs a b := by
  have htested := evalConst_compare hlhs hrhs
  have hordered {o : Ordering} (h : a.compare? b = some o) (op : Comparison) :
      tested op lhs rhs = .ok (.bool (Value.holds op o)) := by
    rw [htested, Value.test_of_compare? h]
    rfl
  constructor
  case oneHolds =>
    intro hsome
    obtain ⟨o, ho⟩ := Option.isSome_iff_exists.1 hsome
    simpa only [hordered ho, Except.ok.injEq, Value.bool.injEq] using existsUnique_holds o
  case atMost =>
    intro hsome
    obtain ⟨o, ho⟩ := Option.isSome_iff_exists.1 hsome
    refine ⟨_, _, hordered ho .lt, hordered ho .eq, ?_⟩
    rw [hordered ho]
    cases o <;> rfl
  case atLeast =>
    intro hsome
    obtain ⟨o, ho⟩ := Option.isSome_iff_exists.1 hsome
    refine ⟨_, _, hordered ho .gt, hordered ho .eq, ?_⟩
    rw [hordered ho]
    cases o <;> rfl
  case differs => exact ⟨_, htested .eq, htested .ne⟩
  case besideNull =>
    intro hnull op hop
    have heither : (a.isNull || b.isNull) = true := Bool.or_eq_true_iff.2 hnull
    rw [htested, Value.test_of_compare?_eq_none hop (Value.compare?_of_isNull hnull), heither]
    rfl
  case withoutOrder =>
    intro hnone ha hb
    constructor
    · intro op hop
      rw [htested, Value.test_of_compare?_eq_none hop hnone, ha, hb]
      rfl
    · rw [htested, Value.test, Value.looseEq_of_compare?_eq_none hnone, ha]
      rfl

end Expr

/-! ## The whole -/

namespace Value

/-- The order of three values and their equality with promotion of numbers. -/
structure ComparesCoherently (a b c : Value) : Prop where
  /-- To compare the other way round gives the reverse answer, or none if there was none. -/
  reversed : b.compare? a = (a.compare? b).map Ordering.swap
  /-- A value is equal to itself unless it is null. -/
  self : a.compare? a = if a.isNull then none else some .eq
  /-- Less than or equal to is transitive. -/
  atMost_trans : a.AtMost b → b.AtMost c → a.AtMost c
  /-- Equality holds of a value and itself. -/
  equal_self : a.looseEq a = true
  /-- Equality goes both ways. -/
  equal_comm : a.looseEq b = b.looseEq a
  /-- Equality is transitive. -/
  equal_trans : a.looseEq b = true → b.looseEq c = true → a.looseEq c = true
  /-- Null is equal to null and to nothing else. -/
  equal_null : a.looseEq null = a.isNull

/-- Values other than floating-point numbers are coherently ordered, and comparisons of operands
with such values are evaluated accordingly. -/
theorem comparesCoherently {a b c : Value} {lhs rhs : Expr} (ha : a.isDouble = false)
    (hb : b.isDouble = false) (hc : c.isDouble = false) (hlhs : lhs.evalConst = .ok a)
    (hrhs : rhs.evalConst = .ok b) :
    ComparesCoherently a b c ∧ lhs.TestsCoherently rhs a b :=
  ⟨{ reversed := compare?_swap ha hb
     self := compare?_self ha
     atMost_trans := fun hab hbc => hab.trans hbc ha hb hc
     equal_self := looseEq_self ha
     equal_comm := looseEq_comm ha hb
     equal_trans := fun hab hbc => looseEq_trans hab hbc ha hb hc
     equal_null := looseEq_null a },
   Expr.testsCoherently hlhs hrhs⟩

/-- A narrow three and a wide five, which is the code of a third value. -/
theorem comparesCoherently_threeFive :
    ComparesCoherently (int16 3) (int64 5) (enum ⟨5, some "Shipped"⟩) ∧
      (Expr.value (int16 3)).TestsCoherently (.captured "limit" (int64 5)) (int16 3) (int64 5) :=
  comparesCoherently rfl rfl rfl rfl rfl

end Value

end RowQuery
