import RowQuery.Proofs.Outcome
import RowQuery.Value.Cast

/-!
# What a conversion gives

A value that belongs to a type is left alone by the conversion to the type, and what a conversion
gives belongs to its target.  Enumerations are apart: a value of one is named anew when it is
converted to another.

Main results:

- Theorems {lit}`toInteger16_eq_ok` and {lit}`toInteger32_eq_ok`: an integer is narrowed if it is
  the widening of one.
- Theorem {lit}`cast_of_isA`: a value of a type is its own conversion to the type.
- Theorem {lit}`isA_of_cast`: a conversion gives a value of its target.
- Theorem {lit}`take_of_cast`: what was converted to a type is handed over to a place of the type.
-/

namespace RowQuery.Value

open Outcome

/-! ## Narrowing -/

/-- An integer is narrowed to 16 bits if it is the widening of one of 16 bits. -/
theorem toInteger16_eq_ok {v : Value} {n : Int16} :
    v.toInteger16 = .ok n ↔ v.toInteger = .ok n.toInt64 := by
  rw [toInteger16, bind_eq_ok]
  constructor
  · rintro ⟨wide, hwide, h⟩
    split at h
    · rename_i hfits
      cases h
      have hleast : -2 ^ 15 ≤ wide.toInt := hfits.1
      have hgreatest : wide.toInt < 2 ^ 15 := Int.lt_of_le_of_lt hfits.2 (by decide)
      rw [hwide, Except.ok.injEq, ← Int64.toInt_inj, Int16.toInt_toInt64,
        Int16.toInt_ofInt_of_le hleast hgreatest]
    · cases h
  · intro h
    refine ⟨n.toInt64, h, ?_⟩
    rw [Int16.toInt_toInt64, if_pos ⟨n.minValue_le_toInt, n.toInt_le⟩, Int16.ofInt_toInt]
    rfl

/-- An integer is narrowed to 32 bits if it is the widening of one of 32 bits. -/
theorem toInteger32_eq_ok {v : Value} {n : Int32} :
    v.toInteger32 = .ok n ↔ v.toInteger = .ok n.toInt64 := by
  rw [toInteger32, bind_eq_ok]
  constructor
  · rintro ⟨wide, hwide, h⟩
    split at h
    · rename_i hfits
      cases h
      have hleast : -2 ^ 31 ≤ wide.toInt := hfits.1
      have hgreatest : wide.toInt < 2 ^ 31 := Int.lt_of_le_of_lt hfits.2 (by decide)
      rw [hwide, Except.ok.injEq, ← Int64.toInt_inj, Int32.toInt_toInt64,
        Int32.toInt_ofInt_of_le hleast hgreatest]
    · cases h
  · intro h
    refine ⟨n.toInt64, h, ?_⟩
    rw [Int32.toInt_toInt64, if_pos ⟨n.minValue_le_toInt, n.toInt_le⟩, Int32.ofInt_toInt]
    rfl

/-! ## Belonging to a type -/

/-- The value is one of an enumeration. -/
def isEnum : Value → Bool
  | enum _ => true
  | _ => false

/-- Optional wrappers of a type do not matter to a value that is not null. -/
theorem isA_core {v : Value} (hnull : v.isNull = false) (t : Ty) : v.isA t.core = v.isA t := by
  induction t with
  | option inner ih =>
    rw [isA, hnull, Bool.false_or, ← ih]
    rfl
  | _ => rfl

/-- The values of a type that is neither optional nor an enumeration are those that have it as their
own. -/
theorem isA_eq {t : Ty} (hoption : t.isOption = false) (henum : ∀ e, t ≠ .enum e) (v : Value) :
    v.isA t = (!v.isEnum && decide (v.ty = t)) := by
  cases t with
  | option inner => cases hoption
  | enum e => exact absurd rfl (henum e)
  | _ => cases v <;> rfl

/-! ## Conversions to the own type -/

/-- Optional wrappers of the target do not matter. -/
theorem cast_core (v : Value) (t : Ty) : v.cast t.core = v.cast t := by
  induction t with
  | option inner ih => rw [cast_option, ← ih, Ty.core]
  | _ => rfl

/-- A value that is not one of an enumeration is its own conversion to its own type. -/
theorem cast_ty {v : Value} (h : v.isEnum = false) : v.cast v.ty = .ok v := by
  cases v with
  | int16 n =>
    have hnarrow : (int16 n).toInteger16 = .ok n := toInteger16_eq_ok.2 rfl
    exact map_eq_ok.2 ⟨n, hnarrow, rfl⟩
  | int32 n =>
    have hnarrow : (int32 n).toInteger32 = .ok n := toInteger32_eq_ok.2 rfl
    exact map_eq_ok.2 ⟨n, hnarrow, rfl⟩
  | enum e => cases h
  | _ => rfl

/-- A value of a type that is no enumeration is its own conversion to the type. -/
theorem cast_of_isA {v : Value} {t : Ty} (henum : ∀ e, t.core ≠ .enum e) (h : v.isA t = true) :
    v.cast t = .ok v := by
  cases hnull : v.isNull with
  | true =>
    cases v with
    | null => exact cast_null t
    | _ => cases hnull
  | false =>
    rw [← isA_core hnull, isA_eq t.isOption_core henum, Bool.and_eq_true, Bool.not_eq_true',
      decide_eq_true_eq] at h
    rw [← cast_core, ← h.2, cast_ty h.1]

/-! ## What a conversion belongs to -/

/-- A conversion of a value that is not null gives a value of its target that is not null.  To the
unknown type belongs anything. -/
theorem isA_of_cast {v w : Value} {t : Ty} (hnull : v.isNull = false) (h : v.cast t = .ok w) :
    w.isNull = false ∧ (t.core = .unknown ∨ w.isA t.core = true) := by
  rw [← cast_core] at h
  have hoption := t.isOption_core
  cases hcore : t.core with
  | option inner =>
    rw [hcore] at hoption
    cases hoption
  | unknown =>
    rw [hcore, cast, hnull, if_neg Bool.false_ne_true] at h
    cases h
    exact ⟨hnull, .inl rfl⟩
  | enum e =>
    rw [hcore, cast, hnull, if_neg Bool.false_ne_true] at h
    cases hread : v.toEnum? e with
    | none =>
      simp only [hread] at h
      cases h
    | some value =>
      simp only [hread] at h
      cases h
      exact ⟨rfl, .inr rfl⟩
  | _ =>
    rw [hcore, cast, hnull, if_neg Bool.false_ne_true, map_eq_ok] at h
    obtain ⟨content, _, rfl⟩ := h
    exact ⟨rfl, .inr rfl⟩

/-! ## Handing over -/

/-- A value of a type is handed over to a place of the type. -/
theorem take_of_isA {v : Value} {t : Ty} (h : t.core = .unknown ∨ v.isA t.core = true) :
    v.take t = .ok v := by
  rw [take, if_pos (h.imp_right .inr)]

/-- What was converted to a type is handed over to a place of the type. -/
theorem take_of_cast {v w : Value} {t : Ty} (hnull : v.isNull = false) (h : v.cast t = .ok w) :
    w.take t = .ok w :=
  take_of_isA (isA_of_cast hnull h).2

end RowQuery.Value
