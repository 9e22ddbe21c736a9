/-!
# Numbering in the order of first use

Constants are numbered from zero in the order in which they are recorded.  A list of numbers
that uses them in that order brings in each number when all smaller ones are there, and may
then use it again.

Main results:

- Definition {lit}`Numbered`: a list of numbers that starts with {lit}`n` numbers in use and
  ends with {lit}`m` of them.
- Theorems {lit}`Numbered.append` and {lit}`Numbered.again`: one list behind another, and the
  same list a second time.
-/

namespace RowQuery.Sql

/-- A list brings in the numbers from {lit}`n` up to {lit}`m` one after the other; in between it
may use those that are there. -/
inductive Numbered : Nat → List Nat → Nat → Prop
  /-- No number comes in. -/
  | nil (n : Nat) : Numbered n [] n
  /-- A number is used again. -/
  | old {n m i : Nat} {rest : List Nat} (hlt : i < n) (hrest : Numbered n rest m) :
    Numbered n (i :: rest) m
  /-- The next number comes in. -/
  | new {n m : Nat} {rest : List Nat} (hrest : Numbered (n + 1) rest m) :
    Numbered n (n :: rest) m

namespace Numbered

/-- Numbers only come in. -/
theorem le {n m : Nat} {l : List Nat} (h : Numbered n l m) : n ≤ m := by
  induction h with
  | nil n => exact Nat.le_refl n
  | old _ _ ih => exact ih
  | new _ ih => exact Nat.le_of_succ_le ih

/-- Without a list, no number comes in. -/
theorem eq_of_nil {n m : Nat} (h : Numbered n [] m) : m = n := by
  cases h
  rfl

/-- Every number of the list is in use at its end. -/
theorem lt_of_mem {n m i : Nat} {l : List Nat} (h : Numbered n l m) (hi : i ∈ l) : i < m := by
  induction h with
  | nil n => cases hi
  | old hlt hrest ih =>
    rcases List.mem_cons.1 hi with rfl | hi
    · exact Nat.lt_of_lt_of_le hlt hrest.le
    · exact ih hi
  | new hrest ih =>
    rcases List.mem_cons.1 hi with rfl | hi
    · exact hrest.le
    · exact ih hi

/-- One list behind another. -/
theorem append {n k m : Nat} {l l' : List Nat} (h : Numbered n l k) (h' : Numbered k l' m) :
    Numbered n (l ++ l') m := by
  induction h with
  | nil n => exact h'
  | old hlt _ ih => exact old hlt (ih h')
  | new _ ih => exact new (ih h')

/-- A list of numbers in use brings in none. -/
theorem of_forall_lt {n : Nat} {l : List Nat} (h : ∀ i ∈ l, i < n) : Numbered n l n := by
  induction l with
  | nil => exact nil n
  | cons i rest ih =>
    exact old (h i List.mem_cons_self) (ih fun j hj => h j (List.mem_cons_of_mem i hj))

/-- A list brings in nothing the second time. -/
theorem again {n m : Nat} {l : List Nat} (h : Numbered n l m) : Numbered n (l ++ l) m :=
  h.append (of_forall_lt fun _ hi => h.lt_of_mem hi)

end Numbered

end RowQuery.Sql
