import Mathlib.Algebra.GroupWithZero.Nat
import RowQuery.Proofs.Query.Steps
import RowQuery.Proofs.Sql.PagedRows

/-!
# The window of a query

A query names numbers of rows to leave out and numbers of rows to keep.  A draft holds all counts
of one kind as a single one, and the paging of a statement uses what the draft holds.

Main results:

- Definition {lit}`Bounding.total`: what several counts of one kind ask for.
- Theorem {lit}`Draft.amount_run`: a draft holds the total of the counts of its operators.
- Theorem {lit}`Sql.Select.paging_eq_ok`: a paging uses the counts of its selection.
-/

namespace RowQuery

open Outcome

/-! ## Paging -/

namespace Sql

/-- The number of rows that are left out at the start. -/
def Paging.skipped : Paging → Option UInt64
  | first _ => none
  | window _ limiter => some limiter.skip
  | numbered past _ => some past
  | offset skip _ => some skip

/-- The greatest number of rows that are returned. -/
def Paging.taken : Paging → Option UInt64
  | first count => count
  | window _ limiter => limiter.take
  | numbered past upTo => upTo.map (· - past)
  | offset _ take => take

/-- The rows up to the end of a window are those that are left out and those that are kept. -/
theorem Select.windowEnd_eq_ok {skip : UInt64} {take upTo : Option UInt64}
    (h : windowEnd skip take = .ok upTo) : upTo.map (· - skip) = take := by
  cases take with
  | none =>
    cases h
    rfl
  | some n =>
    obtain ⟨total, rfl, htotal⟩ := Option.map_eq_some_iff.1 (windowEnd_eq_ok_iff.1 h)
    refine congrArg some (UInt64.toNat_inj.1 ?_)
    rw [UInt64.toNat_sub_of_le, htotal, Nat.add_sub_cancel_left]
    rw [UInt64.le_iff_toNat_le, htotal]
    exact Nat.le_add_right ..

/-- The paging of a selection leaves out and returns as many rows as the selection asks for,
whatever the dialect. -/
theorem Select.paging_eq_ok {s : Select} {dialect : Dialect} {p : Paging}
    (h : s.paging dialect = .ok p) : p.skipped = s.skip ∧ p.taken = s.take := by
  cases paging_eq_ok_iff.1 h with
  | first _ hskip => exact ⟨hskip.symm, rfl⟩
  | window hskip _ _ => exact ⟨hskip.symm, rfl⟩
  | numbered hskip _ hend => exact ⟨hskip.symm, windowEnd_eq_ok hend⟩
  | offset hskip _ => exact ⟨hskip.symm, rfl⟩

end Sql

namespace Query

open Sql

/-! ## Counts -/

/-- The kinds of operators that name a number of rows. -/
inductive Bounding where
  /-- So many rows are left out at the start. -/
  | skip
  /-- At most so many rows are kept. -/
  | take
  deriving DecidableEq

namespace Bounding

/-- The operator with an expression for the number of rows. -/
def operator : Bounding → Expr → Operator
  | skip, count => .skip count
  | take, count => .take count

/-- The name of the operator in messages. -/
def name : Bounding → String
  | skip => "Skip"
  | take => "Take"

/-- The operator has the name of its kind. -/
@[simp]
theorem name_operator (b : Bounding) (count : Expr) : (b.operator count).name = b.name := by
  cases b <;> rfl

/-- The number of rows of this kind that an operator names.  The first row is one row. -/
def count? (b : Bounding) (table : Table) : Operator → Option UInt64
  | .skip count => if b = skip then (Draft.countOf table count).toOption else none
  | .take count => if b = take then (Draft.countOf table count).toOption else none
  | .first => if b = take then some 1 else none
  | _ => none

/-- The numbers of rows of this kind that operators name, in their order. -/
def counts (b : Bounding) (table : Table) (operators : List Operator) : List UInt64 :=
  operators.filterMap (b.count? table)

/-- What several counts ask for, if there are any.  Rows to leave out add up, though not past the
greatest count; of the bounds the least counts. -/
def total (b : Bounding) (counts : List UInt64) : Option UInt64 :=
  match b with
  | skip =>
    if counts.isEmpty then none
    else some (UInt64.ofNat (min (counts.map UInt64.toNat).sum maxCount.toNat))
  | take => counts.min?

/-- The size of what several numbers of rows to leave out ask for. -/
theorem toNat_total_skip (counts : List UInt64) :
    ((skip.total counts).getD 0).toNat = min (counts.map UInt64.toNat).sum maxCount.toNat := by
  cases counts with
  | nil => rfl
  | cons n rest =>
    rw [total, List.isEmpty_cons, if_neg Bool.false_ne_true, Option.getD_some]
    apply UInt64.toNat_ofNat_of_lt'
    exact Nat.lt_of_le_of_lt (Nat.min_le_right _ _) maxCount.toNat_lt

/-- Rows to leave out are added to those before. -/
theorem total_skip_concat (counts : List UInt64) (n : UInt64) :
    skip.total (counts ++ [n]) = some (addCountsUpTo ((skip.total counts).getD 0) n) := by
  have hsome : skip.total (counts ++ [n]) = some ((skip.total (counts ++ [n])).getD 0) := by
    simp [total]
  rw [hsome, Option.some.injEq, ← UInt64.toNat_inj, toNat_addCountsUpTo, toNat_total_skip,
    toNat_total_skip, List.map_append, List.sum_append, List.map_singleton, List.sum_singleton]
  omega

/-- A bound is compared with the least one before. -/
theorem total_take_concat (counts : List UInt64) (n : UInt64) :
    take.total (counts ++ [n]) = some (((take.total counts).map (min · n)).getD n) := by
  cases counts with
  | nil => rfl
  | cons m rest =>
    simp only [total, List.cons_append, List.min?_cons', List.foldl_append, List.foldl_cons,
      List.foldl_nil, Option.map_some, Option.getD_some]

/-- What a draft holds of this kind. -/
def amount (b : Bounding) (d : Draft) : Option UInt64 :=
  match b with
  | skip => d.skip
  | take => d.take

/-- What a paging uses of this kind. -/
def used (b : Bounding) (p : Paging) : Option UInt64 :=
  match b with
  | skip => p.skipped
  | take => p.taken

end Bounding

/-! ## Drafts -/

namespace Draft

variable {table : Table} {d d' : Draft}

/-- A condition leaves the counts as they are. -/
theorem amount_addFilter? (b : Bounding) {condition : Option Expr}
    (h : d.addFilter? table condition = .ok d') : b.amount d' = b.amount d := by
  obtain ⟨_, _, rfl⟩ := eq_of_addFilter? h
  cases b <;> rfl

/-- An ordering key leaves the counts as they are. -/
theorem amount_addKey (b : Bounding) {operator : String} {direction : Direction} {key : Expr}
    (h : d.addKey table operator direction key = .ok d') : b.amount d' = b.amount d := by
  obtain ⟨_, _, rfl⟩ := orderedText_of_addKey h
  cases b <;> rfl

/-- A bound is compared with what a draft holds. -/
theorem take_bound (d : Draft) (n : UInt64) :
    (d.bound n).take = some ((d.take.map (min · n)).getD n) := by
  unfold bound
  cases d.take <;> rfl

/-- An operator adds its count to those of the operators before. -/
theorem amount_adds {op : Operator} (h : Adds table d op d') (b : Bounding) {counts : List UInt64}
    (hd : b.amount d = b.total counts) :
    b.amount d' = b.total (counts ++ (b.count? table op).toList) := by
  have hkept {d' : Draft} {op : Operator} (hamount : b.amount d' = b.amount d)
      (hop : b.count? table op = none) :
      b.amount d' = b.total (counts ++ (b.count? table op).toList) := by
    rw [hop, Option.toList_none, List.append_nil, hamount, hd]
  cases h with
  | filter h => exact hkept (amount_addFilter? b h) rfl
  | orderBy h => exact hkept (amount_addKey b h) rfl
  | thenBy _ h => exact hkept (amount_addKey b h) rfl
  | skip hcount _ =>
    cases b with
    | take => exact hkept rfl rfl
    | skip =>
      rw [Bounding.count?, if_pos rfl, hcount, Except.toOption, Option.toList_some,
        Bounding.total_skip_concat, ← hd]
      rfl
  | take hcount =>
    cases b with
    | skip => exact hkept rfl rfl
    | take =>
      rw [Bounding.count?, if_pos rfl, hcount, Except.toOption, Option.toList_some,
        Bounding.total_take_concat, ← hd]
      exact take_bound d _
  | first =>
    cases b with
    | skip => exact hkept rfl rfl
    | take =>
      rw [Bounding.count?, if_pos rfl, Option.toList_some, Bounding.total_take_concat, ← hd]
      exact take_bound d 1
  | count h =>
    refine hkept ?_ rfl
    rw [← amount_addFilter? b h]
    cases b <;> rfl
  | any h =>
    refine hkept ?_ rfl
    rw [← amount_addFilter? b h]
    cases b <;> rfl
  | aggregate _ =>
    refine hkept ?_ rfl
    cases b <;> rfl

/-- Operators add their counts one after the other. -/
theorem amount_run {operators : List Operator}
    (h : operators.foldlM (Draft.apply table) d = .ok d') (b : Bounding) {counts : List UInt64}
    (hd : b.amount d = b.total counts) :
    b.amount d' = b.total (counts ++ b.counts table operators) := by
  induction operators generalizing d counts with
  | nil =>
    cases h
    rw [Bounding.counts, List.filterMap_nil, List.append_nil, hd]
  | cons op rest ih =>
    rw [List.foldlM_cons, bind_eq_ok] at h
    obtain ⟨d₁, hop, h⟩ := h
    rw [ih h (amount_adds (apply_eq_ok.1 hop).2 b hd), List.append_assoc]
    congr 2
    unfold Bounding.counts
    cases hcount : b.count? table op with
    | none => rw [List.filterMap_cons_none hcount, Option.toList_none, List.nil_append]
    | some n => rw [List.filterMap_cons_some hcount, Option.toList_some, List.singleton_append]

/-- A draft holds the total of the counts of its operators. -/
theorem amount_draft {q : Query} (h : q.draft = .ok d) (b : Bounding) :
    b.amount d = b.total (b.counts q.table q.operators) := by
  have hempty : b.amount Draft.empty = b.total [] := by cases b <;> rfl
  exact amount_run h b hempty

end Draft

end Query

end RowQuery
