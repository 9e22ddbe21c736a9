import RowQuery.Proofs.Outcome
import RowQuery.Sql.Select

/-!
# The rows that a paging returns

A paging is read as what the database and the reader make of it.  The database returns the first
rows, or numbers them and filters by the number, or leaves out rows itself; the reader counts the
rows that it gets and keeps those that its window admits.

Main results:

- Definition {lit}`slice`: the rows behind the first ones, or at most so many of them.
- Theorems {lit}`RowLimiter.kept_eq_slice` and {lit}`numberedRows_eq_slice`: a window over counted
  rows and a range of row numbers are slices.
- Theorem {lit}`Select.paging_eq_ok_iff`: the ways in which the dialects take a window, and what
  each of them needs.
- Theorem {lit}`Select.rows_of_paging`: whatever the dialect, the rows of a paging are the slice
  that the selection asks for.
-/

namespace RowQuery.Sql

open Outcome

variable {α : Type}

/-! ## Counts -/

/-- The sum of two counts is the count of that size. -/
theorem addCounts?_eq_some {a b total : UInt64} :
    addCounts? a b = some total ↔ total.toNat = a.toNat + b.toNat := by
  unfold addCounts?
  constructor
  · intro h
    split at h
    · rename_i hle
      cases h
      rw [toNat_maxCount] at hle
      rw [UInt64.toNat_add]
      exact Nat.mod_eq_of_lt (by omega)
    · cases h
  · intro h
    have hle : a.toNat + b.toNat ≤ maxCount.toNat := h ▸ Nat.le_of_lt_succ total.toNat_lt
    have hadd : (a + b).toNat = a.toNat + b.toNat := by
      rw [toNat_maxCount] at hle
      rw [UInt64.toNat_add]
      exact Nat.mod_eq_of_lt (by omega)
    rw [if_pos hle, Option.some.injEq, ← UInt64.toNat_inj, hadd, h]

/-- The lesser of two counts has the lesser size. -/
theorem toNat_min_count (a b : UInt64) : (min a b).toNat = min a.toNat b.toNat := by
  change (if a ≤ b then a else b).toNat = _
  by_cases hle : a ≤ b
  · rw [if_pos hle, Nat.min_eq_left (UInt64.le_iff_toNat_le.1 hle)]
  · rw [if_neg hle, Nat.min_eq_right]
    rw [UInt64.le_iff_toNat_le] at hle
    exact Nat.le_of_not_le hle

/-! ## Pieces of a text -/

/-- A piece stands somewhere in a text. -/
def Contains (piece text : String) : Prop :=
  ∃ before after, text = before ++ piece ++ after

namespace Contains

/-- A piece stands in itself. -/
theorem refl (piece : String) : Contains piece piece :=
  ⟨"", "", by simp⟩

/-- A piece stands in a text behind more text. -/
theorem append_left {piece text : String} (h : Contains piece text) (more : String) :
    Contains piece (more ++ text) := by
  obtain ⟨before, after, rfl⟩ := h
  exact ⟨more ++ before, after, by simp only [String.append_assoc]⟩

/-- A piece stands in a text in front of more text. -/
theorem append_right {piece text : String} (h : Contains piece text) (more : String) :
    Contains piece (text ++ more) := by
  obtain ⟨before, after, rfl⟩ := h
  exact ⟨before, after ++ more, by simp only [String.append_assoc]⟩

/-- A piece stands in a clause if it stands behind the keyword. -/
theorem write {piece body : String} (h : Contains piece body) (k : Clause) :
    Contains piece (k.write body) :=
  h.append_left (k.keyword ++ " ")

end Contains

/-! ## Slices -/

/-- The rows behind so many rows, or at most so many of them. -/
def slice (skip : Nat) (take : Option Nat) (rows : List α) : List α :=
  match take with
  | none => rows.drop skip
  | some n => (rows.drop skip).take n

@[simp]
theorem slice_nil (skip : Nat) (take : Option Nat) : slice skip take ([] : List α) = [] := by
  cases take <;> simp [slice]

/-- A row in front of a slice is passed over. -/
@[simp]
theorem slice_succ_cons (skip : Nat) (take : Option Nat) (row : α) (rows : List α) :
    slice (skip + 1) take (row :: rows) = slice skip take rows := by
  cases take <;> rfl

/-- A slice from the start without a bound is everything. -/
@[simp]
theorem slice_zero_none (rows : List α) : slice 0 none rows = rows := rfl

@[simp]
theorem slice_some_zero (skip : Nat) (rows : List α) : slice skip (some 0) rows = [] := by
  simp [slice]

@[simp]
theorem slice_zero_succ_cons (n : Nat) (row : α) (rows : List α) :
    slice 0 (some (n + 1)) (row :: rows) = row :: slice 0 (some n) rows := rfl

/-- A slice has no more rows than there are. -/
theorem length_slice_le (skip : Nat) (take : Option Nat) (rows : List α) :
    (slice skip take rows).length ≤ rows.length := by
  cases take with
  | none => exact (List.drop_sublist skip rows).length_le
  | some n => exact ((List.take_sublist n _).trans (List.drop_sublist skip rows)).length_le

/-- To take the rows up to the end of a slice first does not change the slice. -/
theorem slice_take (skip n : Nat) (rows : List α) :
    slice skip (some n) (rows.take (skip + n)) = slice skip (some n) rows := by
  simp only [slice, List.drop_take, List.take_take]
  rw [Nat.add_sub_cancel_left, Nat.min_self]

/-- To leave out more rows than there are is to leave out all. -/
theorem slice_min (skip : Nat) {most : Nat} (take : Option Nat) {rows : List α}
    (hrows : rows.length ≤ most) : slice (min skip most) take rows = slice skip take rows := by
  rcases Nat.le_total skip most with hle | hle
  · rw [Nat.min_eq_left hle]
  · have hmost : rows.drop most = [] := List.drop_eq_nil_of_le hrows
    have hskip : rows.drop skip = [] := List.drop_eq_nil_of_le (Nat.le_trans hrows hle)
    rw [Nat.min_eq_right hle]
    cases take <;> simp only [slice, hmost, hskip]

/-! ## The reader -/

namespace RowLimiter

/-- The rows that the reader keeps, where the first of them has an index.  It goes from row to row
until the window lies behind. -/
def kept (l : RowLimiter) (index : UInt64) : List α → List α
  | [] => []
  | row :: rows =>
    if l.isExhausted index then []
    else if l.admits index then row :: l.kept (index + 1) rows
    else l.kept (index + 1) rows

/-- The number of rows that a window admits from an index on. -/
def admitted (l : RowLimiter) (index : Nat) : Option Nat :=
  l.take.map fun take => take.toNat - (index - l.skip.toNat)

/-- From an index on, the reader keeps a slice of the rows, as long as their indices are words. -/
theorem kept_from (l : RowLimiter) {index : UInt64} {rows : List α}
    (hrows : index.toNat + rows.length ≤ maxCount.toNat) :
    l.kept index rows = slice (l.skip.toNat - index.toNat) (l.admitted index.toNat) rows := by
  induction rows generalizing index with
  | nil => simp [kept]
  | cons row rows ih =>
    rw [List.length_cons] at hrows
    have hindex : index.toNat + 1 ≤ maxCount.toNat := by omega
    have hnext : (index + 1).toNat = index.toNat + 1 := by
      rw [toNat_maxCount] at hindex
      rw [UInt64.toNat_add, UInt64.toNat_one]
      omega
    have htail : l.kept (index + 1) rows = _ := ih (by omega)
    rw [hnext] at htail
    rw [kept]
    by_cases hexhausted : l.isExhausted index = true
    · -- the end of the window is a word, as there is a row behind it
      obtain ⟨take, htake, hend⟩ := isExhausted_iff.1 hexhausted
      have hzero : take.toNat - (index.toNat - l.skip.toNat) = 0 := by omega
      rw [if_pos hexhausted, admitted, htake, Option.map_some, hzero, slice_some_zero]
    · rw [if_neg hexhausted]
      by_cases hadmits : l.admits index = true
      · obtain ⟨hskip, hinside⟩ := admits_iff.1 hadmits
        have hfront : l.skip.toNat - index.toNat = 0 := by omega
        have hfront' : l.skip.toNat - (index.toNat + 1) = 0 := by omega
        rw [if_pos hadmits, htail]
        cases htake : l.take with
        | none =>
          simp only [admitted, htake, Option.map_none, hfront, hfront', slice_zero_none]
        | some take =>
          have hlt := hinside take htake
          have hleft : take.toNat - (index.toNat - l.skip.toNat) =
              take.toNat - (index.toNat + 1 - l.skip.toNat) + 1 := by omega
          simp only [admitted, htake, Option.map_some, hfront, hfront', hleft,
            slice_zero_succ_cons]
      · have hlt := lt_skip_of_not_admits (Bool.eq_false_iff.2 hexhausted)
          (Bool.eq_false_iff.2 hadmits)
        rw [UInt64.lt_iff_toNat_lt] at hlt
        have hfront : l.skip.toNat - index.toNat = l.skip.toNat - (index.toNat + 1) + 1 := by omega
        have hleft : l.admitted (index.toNat + 1) = l.admitted index.toNat := by
          unfold admitted
          rw [Nat.sub_eq_zero_of_le (Nat.le_of_lt hlt), Nat.sub_eq_zero_of_le hlt]
        rw [if_neg hadmits, htail, hfront, slice_succ_cons, hleft]

/-- The reader keeps the slice of its window. -/
theorem kept_eq_slice (l : RowLimiter) {rows : List α} (hrows : rows.length ≤ maxCount.toNat) :
    l.kept 0 rows = slice l.skip.toNat (l.take.map UInt64.toNat) rows := by
  have hzero : (0 : UInt64).toNat = 0 := rfl
  rw [kept_from l (by rwa [hzero, Nat.zero_add]), hzero, Nat.sub_zero, admitted, Nat.zero_sub]
  simp only [Nat.sub_zero]

end RowLimiter

/-! ## Numbered rows -/

/-- The rows whose number, counted from a start, is past a bound and not past another. -/
def numberedRows (past : Nat) (upTo : Option Nat) (start : Nat) (rows : List α) : List α :=
  ((rows.zipIdx start).filter fun row => past < row.2 && upTo.all (row.2 ≤ ·)).map Prod.fst

/-- A range of numbers is a slice, wherever the numbers start. -/
theorem numberedRows_from (past : Nat) (upTo : Option Nat) (start : Nat) (rows : List α) :
    numberedRows past upTo (start + 1) rows =
      slice (past - start) (upTo.map (· - max past start)) rows := by
  induction rows generalizing start with
  | nil => simp [numberedRows]
  | cons row rows ih =>
    have htail := ih (start + 1)
    unfold numberedRows at htail ⊢
    rw [List.zipIdx_cons, List.filter_cons]
    rcases Nat.lt_or_ge start past with hfront | hpast
    · have hsub : past - start = past - (start + 1) + 1 := by omega
      have hleft : max past start = max past (start + 1) := by omega
      have hnot : ¬ past < start + 1 := by omega
      simp only [hnot, decide_false, Bool.false_and, Bool.false_eq_true, if_false]
      rw [htail, hsub, slice_succ_cons, hleft]
    · have hsub : past - start = 0 := by omega
      have hsub' : past - (start + 1) = 0 := by omega
      have hlt : past < start + 1 := by omega
      rw [hsub'] at htail
      cases upTo with
      | none =>
        simp only [hlt, decide_true, Option.all_none, Bool.and_self, if_true, List.map_cons, hsub,
          Option.map_none, slice_zero_none] at htail ⊢
        rw [htail]
      | some last =>
        simp only [hlt, decide_true, Option.all_some, Bool.true_and, decide_eq_true_eq, hsub,
          Option.map_some] at htail ⊢
        rcases Nat.lt_or_ge start last with hle | hgt
        · have hleft : last - max past start = last - max past (start + 1) + 1 := by omega
          rw [if_pos (Nat.succ_le_of_lt hle), List.map_cons, htail, hleft, slice_zero_succ_cons]
        · have hleft : last - max past start = 0 := by omega
          have hleft' : last - max past (start + 1) = 0 := by omega
          rw [if_neg (by omega), htail, hleft, hleft', slice_some_zero, slice_some_zero]

/-- A range of numbers that are counted from one is a slice. -/
theorem numberedRows_eq_slice (past : Nat) (upTo : Option Nat) (rows : List α) :
    numberedRows past upTo 1 rows = slice past (upTo.map (· - past)) rows := by
  rw [numberedRows_from past upTo 0, Nat.sub_zero, Nat.max_zero]

/-! ## Pagings -/

/-- The rows that come out of a paging, from the rows that satisfy the condition in their order. -/
def Paging.rows (p : Paging) (rows : List α) : List α :=
  match p with
  | first count => slice 0 (count.map UInt64.toNat) rows
  | window count limiter => limiter.kept 0 (slice 0 (count.map UInt64.toNat) rows)
  | numbered past upTo => numberedRows past.toNat (upTo.map UInt64.toNat) 1 rows
  | offset skip take => slice skip.toNat (take.map UInt64.toNat) rows

namespace Select

/-- The end of a window is the sum of its counts, which has to be a count. -/
theorem windowEnd_eq_ok_iff {skip : UInt64} {take upTo : Option UInt64} :
    windowEnd skip take = .ok upTo ↔
      upTo.map UInt64.toNat = take.map (skip.toNat + ·.toNat) := by
  cases take with
  | none => simp [windowEnd, eq_comm]
  | some n =>
    simp only [windowEnd, Option.map_some]
    cases hsum : addCounts? skip n with
    | none =>
      have hnot (total : UInt64) : total.toNat ≠ skip.toNat + n.toNat := by
        intro htotal
        rw [addCounts?_eq_some.2 htotal] at hsum
        cases hsum
      cases upTo <;> simp [hnot]
    | some total =>
      rw [← addCounts?_eq_some.1 hsum]
      cases upTo with
      | none => simp
      | some other =>
        simp only [Except.ok.injEq, Option.some.injEq, Option.map_some, UInt64.toNat_inj]
        exact eq_comm

/-- A window has an end if the sum of its counts is a count. -/
theorem exists_windowEnd_iff {skip : UInt64} {take : Option UInt64} :
    (∃ upTo, windowEnd skip take = .ok upTo) ↔
      ∀ n ∈ take, skip.toNat + n.toNat ≤ maxCount.toNat := by
  simp only [windowEnd_eq_ok_iff]
  cases take with
  | none => simp
  | some n =>
    simp only [Option.mem_def, Option.some.injEq, forall_eq', Option.map_some]
    constructor
    · rintro ⟨upTo, hupTo⟩
      obtain ⟨total, -, htotal⟩ := Option.map_eq_some_iff.1 hupTo
      rw [← htotal]
      exact Nat.le_of_lt_succ total.toNat_lt
    · intro hle
      have htotal := addCounts?_eq_some.1 (show addCounts? skip n = some (skip + n) from if_pos hle)
      exact ⟨some (skip + n), congrArg some htotal⟩

/-- The ways in which the dialects take the window of a selection.  Only the rows at the start are
left out in different ways, and only if there is an ordering. -/
inductive Pages (s : Select) : Dialect → Paging → Prop
  | first (d : Dialect) (hskip : s.skip = none) : Pages s d (.first s.take)
  | window {skip : UInt64} {upTo : Option UInt64} (hskip : s.skip = some skip)
      (hordering : s.ordering.isSome = true) (hend : windowEnd skip s.take = .ok upTo) :
      Pages s .top (.window upTo ⟨skip, s.take⟩)
  | numbered {skip : UInt64} {upTo : Option UInt64} (hskip : s.skip = some skip)
      (hordering : s.ordering.isSome = true) (hend : windowEnd skip s.take = .ok upTo) :
      Pages s .rowNumber (.numbered skip upTo)
  | offset {skip : UInt64} (hskip : s.skip = some skip) (hordering : s.ordering.isSome = true) :
      Pages s .offsetFetch (.offset skip s.take)

/-- A dialect takes the window of a selection in its way. -/
theorem paging_eq_ok_iff {s : Select} {d : Dialect} {p : Paging} :
    s.paging d = .ok p ↔ s.Pages d p := by
  constructor
  · intro h
    unfold paging at h
    split at h
    · rename_i hskip
      cases h
      exact .first d hskip
    · rename_i skip hskip
      split at h
      · cases h
      · rename_i hordering
        rw [Option.isNone_iff_eq_none, ← ne_eq, Option.ne_none_iff_isSome] at hordering
        cases d with
        | top =>
          obtain ⟨upTo, hend, h⟩ := bind_eq_ok.1 h
          cases h
          exact .window hskip hordering hend
        | rowNumber =>
          obtain ⟨upTo, hend, h⟩ := bind_eq_ok.1 h
          cases h
          exact .numbered hskip hordering hend
        | offsetFetch =>
          cases h
          exact .offset hskip hordering
  · intro h
    cases h with
    | first _ hskip => simp only [paging, hskip]
    | window hskip hordering hend =>
      simp only [paging, hskip, Option.isNone_eq_false_iff.2 hordering]
      exact bind_eq_ok.2 ⟨_, hend, rfl⟩
    | numbered hskip hordering hend =>
      simp only [paging, hskip, Option.isNone_eq_false_iff.2 hordering]
      exact bind_eq_ok.2 ⟨_, hend, rfl⟩
    | offset hskip hordering =>
      simp only [paging, hskip, Option.isNone_eq_false_iff.2 hordering]
      rfl

/-- A selection that leaves out rows needs an ordering, and unless the statement has a place for
each count, their sum has to be a count. -/
theorem exists_paging_iff {s : Select} {dialect : Dialect} :
    (∃ p, s.paging dialect = .ok p) ↔
      ∀ skip ∈ s.skip, s.ordering.isSome = true ∧
        (dialect = .offsetFetch ∨ ∀ n ∈ s.take, skip.toNat + n.toNat ≤ maxCount.toNat) := by
  unfold paging
  cases s.skip with
  | none => simp
  | some skip =>
    simp only [Option.mem_def, Option.some.injEq, forall_eq']
    cases s.ordering with
    | none => simp
    | some ordering =>
      simp only [Option.isNone_some, Bool.false_eq_true, if_false, Option.isSome_some, true_and]
      cases dialect with
      | top =>
        rw [exists_bind_pure_eq_ok, exists_windowEnd_iff]
        simp
      | rowNumber =>
        rw [exists_bind_pure_eq_ok, exists_windowEnd_iff]
        simp
      | offsetFetch => simp

/-- The rows that a selection asks for. -/
def slice (s : Select) (rows : List α) : List α :=
  Sql.slice ((s.skip.map UInt64.toNat).getD 0) (s.take.map UInt64.toNat) rows

/-- Whatever the dialect, the rows of a paging are the slice that the selection asks for. -/
theorem rows_of_paging {s : Select} {dialect : Dialect} {p : Paging}
    (h : s.paging dialect = .ok p) {rows : List α} (hrows : rows.length ≤ maxCount.toNat) :
    p.rows rows = s.slice rows := by
  unfold slice
  cases paging_eq_ok_iff.1 h with
  | first _ hskip =>
    rw [hskip]
    rfl
  | @window skip upTo hskip _ hend =>
    rw [windowEnd_eq_ok_iff] at hend
    rw [hskip, Option.map_some, Option.getD_some, Paging.rows, hend, RowLimiter.kept_eq_slice]
    · cases s.take with
      | none => rfl
      | some n => exact slice_take skip.toNat n.toNat rows
    · exact Nat.le_trans (length_slice_le _ _ rows) hrows
  | @numbered skip upTo hskip _ hend =>
    rw [windowEnd_eq_ok_iff] at hend
    rw [hskip, Option.map_some, Option.getD_some, Paging.rows, hend, numberedRows_eq_slice,
      Option.map_map]
    congr 1
    exact Option.map_congr fun n _ => Nat.add_sub_cancel_left skip.toNat n.toNat
  | offset hskip _ =>
    rw [hskip]
    rfl

/-- A statement that leaves out rows orders them by the ordering of the selection. -/
theorem contains_ordering {s : Select} {dialect : Dialect} {p : Paging} {ordering : String}
    (h : s.paging dialect = .ok p) (hskip : s.skip.isSome = true)
    (hordering : s.ordering = some ordering) :
    Contains (Clause.ordering.write ordering) (s.text p) := by
  have horder : Contains (Clause.ordering.write ordering) s.orderText := by
    rw [orderText, hordering]
    exact (Contains.refl _).append_left " "
  have hnumbered : Contains (Clause.ordering.write ordering) s.numberedText := by
    have hover := (Contains.refl (Clause.ordering.write ordering)).append_left
      (s.columns ++ ", ROW_NUMBER() OVER (")
    have hrows := (((hover.append_right ") AS ").append_right numberColumn).append_right " "
      ).append_right (Clause.source.write s.source)
    unfold numberedText
    rw [hordering, Option.getD_some]
    exact (((hrows.write .columns).append_left "WITH Results_CTE AS (").append_right
      s.filterText).append_right ") "
  cases paging_eq_ok_iff.1 h with
  | first _ hnone =>
    rw [hnone] at hskip
    cases hskip
  | window _ _ _ => exact horder.append_left _
  | numbered _ _ _ => exact (hnumbered.append_right _).append_right _
  | offset _ _ =>
    exact (((horder.append_left _).append_right _).append_right _).append_right _ |>.append_right _

end Select

end RowQuery.Sql
