import RowQuery.Expr.Eval
import RowQuery.Proofs.Value.Casting

/-!
# Arithmetic of integer constants

An operator on two integers runs in 64 bits, and its result is then narrowed to a type that is
found from the operands.  This module compares the outcome with exact arithmetic: the exact result
as a value of the wider type of the two operands, and a fault where there is none.

A result never wraps, whatever the operands are.  It is not of the wider type when a value of an
enumeration, which counts as one of 64 bits, meets nothing of 64 bits; and the remainder of the
least integer by minus one is refused although it is zero.

Main results:

- Theorem {lit}`toOption_compute`: what an operator gives is the exact result as a value of the type
  that the operands are found to have.
- Theorem {lit}`computesExactly_iff`: the operands for which the outcome is that of exact
  arithmetic.
- Theorem {lit}`largeCode_add_one`: the sum of two values of an enumeration that is lost.
-/

namespace RowQuery

/-! ## Exact arithmetic -/

/-- The exact result of an operator on two integers.  Division and remainder are truncated toward
zero and have no result by zero. -/
def Arithmetic.exactInt? (op : Arithmetic) (m n : Int) : Option Int :=
  match op with
  | .add => some (m + n)
  | .sub => some (m - n)
  | .mul => some (m * n)
  | .div => if n = 0 then none else some (m.tdiv n)
  | .rem => if n = 0 then none else some (m.tmod n)

/-- The wider of two integer types. -/
def Ty.wider (s t : Ty) : Ty :=
  if s = .int64 ∨ t = .int64 then .int64
  else if s = .int32 ∨ t = .int32 then .int32
  else .int16

namespace Value

open Outcome

/-- The value of an integer type that stands for an integer, if the integer fits. -/
def ofInteger? (t : Ty) (k : Int) : Option Value :=
  match t with
  | .int16 =>
    if Int16.minValue.toInt ≤ k ∧ k ≤ Int16.maxValue.toInt then some (int16 (Int16.ofInt k))
    else none
  | .int32 =>
    if Int32.minValue.toInt ≤ k ∧ k ≤ Int32.maxValue.toInt then some (int32 (Int32.ofInt k))
    else none
  | .int64 =>
    if Int64.minValue.toInt ≤ k ∧ k ≤ Int64.maxValue.toInt then some (int64 (Int64.ofInt k))
    else none
  | _ => none

/-- What an operator on two integer values is in exact arithmetic: a value of the wider of their
types. -/
def exactValue? (op : Arithmetic) (a b : Value) : Option Value := do
  let m ← a.integer?
  let n ← b.integer?
  let r ← op.exactInt? m.toInt n.toInt
  ofInteger? (a.ty.wider b.ty) r

/-- The value is an integer of 64 bits. -/
def isInt64 : Value → Bool
  | int64 _ => true
  | _ => false

theorem fitsInt64_iff {k : Int} :
    fitsInt64 k = true ↔ Int64.minValue.toInt ≤ k ∧ k ≤ Int64.maxValue.toInt := by
  simp [fitsInt64]

/-- A value that stands for an integer has the type that was asked for. -/
theorem ty_of_ofInteger? {t : Ty} {k : Int} {v : Value} (h : ofInteger? t k = some v) :
    v.ty = t := by
  cases t with
  | int16 | int32 | int64 =>
    simp only [ofInteger?] at h
    split at h
    · cases h
      rfl
    · cases h
  | _ => cases h

/-- What has a value of an integer type fits in 64 bits. -/
theorem fitsInt64_of_ofInteger? {t : Ty} {k : Int} {v : Value} (h : ofInteger? t k = some v) :
    fitsInt64 k = true := by
  have hleast : Int64.minValue.toInt = -2 ^ 63 := rfl
  have hgreatest : Int64.maxValue.toInt = 2 ^ 63 - 1 := rfl
  rw [fitsInt64_iff, hleast, hgreatest]
  cases t with
  | int16 =>
    have hleast16 : Int16.minValue.toInt = -2 ^ 15 := rfl
    have hgreatest16 : Int16.maxValue.toInt = 2 ^ 15 - 1 := rfl
    simp only [ofInteger?] at h
    split at h
    · omega
    · cases h
  | int32 =>
    have hleast32 : Int32.minValue.toInt = -2 ^ 31 := rfl
    have hgreatest32 : Int32.maxValue.toInt = 2 ^ 31 - 1 := rfl
    simp only [ofInteger?] at h
    split at h
    · omega
    · cases h
  | int64 =>
    simp only [ofInteger?] at h
    split at h
    · omega
    · cases h
  | _ => cases h

/-- An integer that has no value of 64 bits has none of any type. -/
theorem ofInteger?_eq_none {k : Int} (h : ofInteger? .int64 k = none) (t : Ty) :
    ofInteger? t k = none := by
  cases hvalue : ofInteger? t k with
  | none => rfl
  | some v =>
    rw [ofInteger?, if_pos (fitsInt64_iff.1 (fitsInt64_of_ofInteger? hvalue))] at h
    cases h

/-- Values of two types for one integer differ. -/
theorem ofInteger?_eq_iff {s t : Ty} (hne : s ≠ t) (k : Int) :
    ofInteger? s k = ofInteger? t k ↔ ofInteger? s k = none ∧ ofInteger? t k = none := by
  constructor
  · intro h
    cases hvalue : ofInteger? t k with
    | none => exact ⟨h.trans hvalue, rfl⟩
    | some v =>
      have hs : v.ty = s := ty_of_ofInteger? (h.trans hvalue)
      exact absurd (hs.symm.trans (ty_of_ofInteger? hvalue)) hne
  · intro h
    rw [h.1, h.2]

/-- The integer types. -/
def IntegerTy (t : Ty) : Prop :=
  t = .int16 ∨ t = .int32 ∨ t = .int64

/-- Converting an integer of 64 bits to an integer type keeps the integer, or fails. -/
theorem toOption_cast {t : Ty} (ht : IntegerTy t) (k : Int64) :
    ((int64 k).cast t).toOption = ofInteger? t k.toInt := by
  rcases ht with rfl | rfl | rfl
  · show ((int64 k).toInteger16.map int16).toOption = _
    simp only [toInteger16, toInteger, integer?, ofInteger?, bind, Except.bind]
    split <;> rfl
  · show ((int64 k).toInteger32.map int32).toOption = _
    simp only [toInteger32, toInteger, integer?, ofInteger?, bind, Except.bind]
    split <;> rfl
  · rw [ofInteger?, if_pos ⟨k.minValue_le_toInt, k.toInt_le⟩, Int64.ofInt_toInt]
    rfl

/-! ## What an operator gives -/

/-- The type of a result is an integer type. -/
theorem integerTy_widerTy (a b : Value) : IntegerTy (widerTy a b) := by
  rw [widerTy]
  split
  · exact .inr (.inr rfl)
  · split
    · exact .inr (.inl rfl)
    · exact .inl rfl

/-- The computation in 64 bits, put together with the narrowing of its result. -/
theorem toOption_computeIntegers {t : Ty} (ht : IntegerTy t) (op : Arithmetic) (m n : Int64) :
    (computeIntegers op m n >>= fun k => (int64 k).cast t).toOption =
      (exactResult? op m.toInt n.toInt).bind (ofInteger? t) := by
  rw [computeIntegers]
  cases exactResult? op m.toInt n.toInt with
  | none => rfl
  | some r =>
    simp only [Option.bind_some]
    by_cases hfits : fitsInt64 r = true
    · have hr : (Int64.ofInt r).toInt = r := by
        rw [fitsInt64_iff] at hfits
        exact Int64.toInt_ofInt_of_le hfits.1 (Int.lt_of_le_of_lt hfits.2 (by decide))
      have hcast := toOption_cast ht (Int64.ofInt r)
      rw [hr] at hcast
      rw [if_pos hfits]
      exact hcast
    · rw [if_neg hfits]
      -- nothing narrower than 64 bits holds what 64 bits do not
      cases hvalue : ofInteger? t r with
      | none => rfl
      | some v => exact absurd (fitsInt64_of_ofInteger? hvalue) hfits

/-- An operator on two integer values runs in 64 bits and narrows its result. -/
theorem compute_integers (op : Arithmetic) {a b : Value} {m n : Int64} (ha : a.integer? = some m)
    (hb : b.integer? = some n) :
    compute op a b = computeIntegers op m n >>= fun k => (int64 k).cast (widerTy a b) := by
  cases a with
  | int16 | int32 | int64 | enum =>
    cases b with
    | int16 | int32 | int64 | enum =>
      cases ha
      cases hb
      cases op <;> rfl
    | _ => cases hb
  | _ => cases ha

/-- An operator on two integer values gives the exact result as a value of the type that the
operands are found to have, and fails if the result does not fit: it never wraps. -/
theorem toOption_compute (op : Arithmetic) {a b : Value} {m n : Int64}
    (ha : a.integer? = some m) (hb : b.integer? = some n) :
    (compute op a b).toOption =
      (exactResult? op m.toInt n.toInt).bind (ofInteger? (widerTy a b)) := by
  rw [compute_integers op ha hb, toOption_computeIntegers (integerTy_widerTy a b)]

/-! ## The type of a result -/

/-- The type of a result is the wider type of the operands, unless a value of an enumeration meets
nothing of 64 bits. -/
theorem widerTy_eq_iff {a b : Value} (ha : a.integer?.isSome) (hb : b.integer?.isSome) :
    widerTy a b = a.ty.wider b.ty ↔
      ¬ ((a.isEnum ∨ b.isEnum) ∧ ¬ a.isInt64 ∧ ¬ b.isInt64) := by
  cases a with
  | int16 | int32 | int64 | enum =>
    cases b with
    | int16 | int32 | int64 | enum =>
      simp [widerTy, Ty.wider, ty, isNumeric, isEnum, isInt64]
    | _ => cases hb
  | _ => cases ha

/-- Where the two differ, the wider type is that of 64 bits. -/
theorem wider_of_isEnum {a b : Value} (h : a.isEnum ∨ b.isEnum) : a.ty.wider b.ty = .int64 := by
  have hty : ∀ v : Value, v.isEnum → v.ty = .int64 := by
    intro v hv
    cases v with
    | enum => rfl
    | _ => cases hv
  rw [Ty.wider, if_pos (h.imp (hty a) (hty b))]

/-! ## The remainder of the least integer -/

/-- The quotient of two integers of 64 bits fits unless the least one is divided by minus one. -/
theorem fitsInt64_tdiv {m n : Int64} (hn : n.toInt ≠ 0)
    (hleast : ¬ (m = Int64.minValue ∧ n = -1)) : fitsInt64 (m.toInt.tdiv n.toInt) = true := by
  have hminimum : Int64.minValue.toInt = -2 ^ 63 := rfl
  have hmaximum : Int64.maxValue.toInt = 2 ^ 63 - 1 := rfl
  have hlower := m.minValue_le_toInt
  have hupper := m.toInt_le
  rw [fitsInt64_iff]
  by_cases hunit : n.toInt.natAbs = 1
  · obtain hone | hone : n.toInt = 1 ∨ n.toInt = -1 := by omega
    · rw [hone, Int.tdiv_one]
      omega
    · -- the least integer is the only one whose negation does not fit
      have hm : m.toInt ≠ Int64.minValue.toInt := by
        intro hm
        exact hleast ⟨Int64.toInt_inj.1 hm, Int64.toInt_inj.1 hone⟩
      rw [hone, Int.tdiv_neg, Int.tdiv_one]
      omega
  · have hhalf : (m.toInt.tdiv n.toInt).natAbs ≤ m.toInt.natAbs / 2 := by
      rw [Int.natAbs_tdiv]
      exact Nat.div_le_div_left (by omega) (by decide)
    omega

/-- The remainder of the least integer by minus one is refused, and apart from it the results are
those of exact arithmetic. -/
theorem exactResult?_eq (op : Arithmetic) (m n : Int64) :
    exactResult? op m.toInt n.toInt =
      if op = .rem ∧ m = Int64.minValue ∧ n = -1 then none
      else op.exactInt? m.toInt n.toInt := by
  cases op with
  | rem =>
    by_cases hleast : m = Int64.minValue ∧ n = -1
    · rw [if_pos ⟨rfl, hleast⟩, hleast.1, hleast.2]
      rfl
    · rw [if_neg fun h => hleast h.2, exactResult?, Arithmetic.exactInt?]
      by_cases hzero : n.toInt = 0
      · rw [if_pos hzero, if_pos hzero]
      · rw [if_neg hzero, if_neg hzero, if_pos (fitsInt64_tdiv hzero hleast)]
  | _ => rfl

end Value

/-! ## When the outcome is exact -/

open Value

/-- The constant expression of an operator on two values has the outcome of exact arithmetic: the
exact result as a value of the wider type, or a fault where there is none. -/
def ComputesExactly (op : Arithmetic) (a b : Value) : Prop :=
  (Expr.evalConst (.binary (.compute op) (.value a) (.value b))).toOption = exactValue? op a b

/-- The outcome is that of exact arithmetic whenever the latter has none, and else exactly when
neither a value of an enumeration meets nothing of 64 bits, nor the remainder of the least integer
by minus one is asked for. -/
theorem computesExactly_iff (op : Arithmetic) {a b : Value} {m n : Int64}
    (ha : a.integer? = some m) (hb : b.integer? = some n) :
    ComputesExactly op a b ↔
      exactValue? op a b = none ∨
        ¬ ((a.isEnum ∨ b.isEnum) ∧ ¬ a.isInt64 ∧ ¬ b.isInt64) ∧
          ¬ (op = .rem ∧ m = Int64.minValue ∧ n = -1) := by
  have hexact : exactValue? op a b =
      (op.exactInt? m.toInt n.toInt).bind (ofInteger? (a.ty.wider b.ty)) := by
    simp [exactValue?, ha, hb]
  have hcode : (Expr.evalConst (.binary (.compute op) (.value a) (.value b))).toOption =
      (if op = .rem ∧ m = Int64.minValue ∧ n = -1 then none
        else op.exactInt? m.toInt n.toInt).bind (ofInteger? (widerTy a b)) := by
    rw [← exactResult?_eq, ← toOption_compute op ha hb]
    rfl
  have hwidth := widerTy_eq_iff (a := a) (b := b) (by rw [ha]; rfl) (by rw [hb]; rfl)
  rw [ComputesExactly, hcode, hexact, ← hwidth]
  by_cases hrem : op = .rem ∧ m = Int64.minValue ∧ n = -1
  · rw [if_pos hrem]
    simp [hrem, eq_comm]
  · rw [if_neg hrem]
    by_cases hty : widerTy a b = a.ty.wider b.ty
    · simp [hty, hrem]
    · simp only [hty, false_and, or_false]
      cases op.exactInt? m.toInt n.toInt with
      | none => simp
      | some r =>
        simp only [Option.bind_some]
        rw [ofInteger?_eq_iff hty]
        constructor
        · intro h
          exact h.2
        · intro h
          have henum := (Decidable.not_imp_comm.1 hwidth.2 hty).1
          rw [wider_of_isEnum henum] at h ⊢
          exact ⟨ofInteger?_eq_none h _, h⟩

/-- Two integers of 16 and 32 bits are multiplied exactly. -/
theorem computesExactly_hundreds :
    (int16 300).integer? = some 300 ∧ (int32 300).integer? = some 300 ∧
      ComputesExactly .mul (int16 300) (int32 300) :=
  ⟨rfl, rfl, (computesExactly_iff .mul rfl rfl).2 (.inr (by decide))⟩

/-- The sum of two values of an enumeration is refused when it does not fit in 16 bits, although
it is a value of 64 bits. -/
theorem largeCode_add_one :
    ¬ ComputesExactly .add (.enum ⟨40000, none⟩) (.enum ⟨1, none⟩) := by
  intro h
  have hcode : Expr.evalConst (.binary (.compute .add) (.value (.enum ⟨40000, none⟩))
      (.value (.enum ⟨1, none⟩))) = .error (Fault.mismatch .int64 .int16) := rfl
  have hexact : exactValue? .add (.enum ⟨40000, none⟩) (.enum ⟨1, none⟩) = some (int64 40001) := rfl
  rw [ComputesExactly, hcode, hexact] at h
  cases h

end RowQuery
