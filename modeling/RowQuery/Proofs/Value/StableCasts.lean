import RowQuery.Proofs.Value.Casting

/-!
# Conversions land in their target and stay there

A conversion gives a value of its target, null only for null, and converting again changes
nothing but the name of a value of an enumeration.  Whatever stops a conversion, the fault is
one of conversion: a value without a counterpart, an integer that does not fit, or a text
that its reader refuses.

Main results:

- Definition {lit}`FailsInConversion`: a computation with no other faults than those of conversion.
- Theorem {lit}`failsInConversion_cast`: conversions have no others.
- Theorem {lit}`cast_again`: converting once more names the value of an enumeration by the code, and
  leaves everything else alone.
- Theorem {lit}`castsStably`: both together with what {lit}`isA_of_cast` says,
  for every value and type.
-/

namespace RowQuery

open Outcome

/-! ## Faults of conversion -/

/-- Whatever fault the computation ends with is one of conversion. -/
def FailsInConversion {α : Type} (x : Except Fault α) : Prop :=
  ∀ f, x = .error f → f.kind = .conversion

namespace FailsInConversion

variable {α β : Type}

/-- A success is no fault. -/
theorem ok (a : α) : FailsInConversion (.ok a) := nofun

/-- An answer that is changed afterwards does not bring in a fault. -/
theorem map {x : Except Fault α} (h : FailsInConversion x) (f : α → β) :
    FailsInConversion (x.map f) := by
  cases x with
  | error e =>
    intro fault hfault
    cases hfault
    exact h e rfl
  | ok a => exact ok _

/-- Two steps fail in conversion if both do. -/
theorem bind {x : Except Fault α} {f : α → Except Fault β} (h : FailsInConversion x)
    (hf : ∀ a, FailsInConversion (f a)) : FailsInConversion (x >>= f) := by
  cases x with
  | error e =>
    intro fault hfault
    cases hfault
    exact h e rfl
  | ok a => exact hf a

/-- A value without a counterpart in a type is a fault of conversion. -/
theorem refuse (v : Value) (target : Ty) :
    FailsInConversion (v.refuse target : Except Fault α) := by
  intro fault hfault
  cases hfault
  rfl

/-- A text that its reader refuses is a fault of conversion. -/
theorem reading {ε : Type} (wrap : ε → ReadingError) (answer : Except ε α) :
    FailsInConversion (Value.reading wrap answer) := by
  cases answer with
  | error e =>
    intro fault hfault
    cases hfault
    rfl
  | ok a => exact ok a

end FailsInConversion

namespace Value

/-! ## One target after the other -/

theorem failsInConversion_toBool (v : Value) : FailsInConversion v.toBool := by
  unfold toBool
  split
  · exact .ok _
  · split
    · exact .ok _
    · exact .refuse _ _
  · exact .ok _
  · split
    · exact .ok _
    · exact .refuse _ _

theorem failsInConversion_toInteger (v : Value) : FailsInConversion v.toInteger := by
  unfold toInteger
  split
  · exact .ok _
  · exact .reading _ _
  · dsimp only
    split
    · exact .ok _
    · exact .refuse _ _
  · split
    · exact .ok _
    · exact .refuse _ _

theorem failsInConversion_toInteger16 (v : Value) : FailsInConversion v.toInteger16 := by
  refine .bind v.failsInConversion_toInteger fun n => ?_
  split
  · exact .ok _
  · exact .refuse _ _

theorem failsInConversion_toInteger32 (v : Value) : FailsInConversion v.toInteger32 := by
  refine .bind v.failsInConversion_toInteger fun n => ?_
  split
  · exact .ok _
  · exact .refuse _ _

theorem failsInConversion_toDouble (v : Value) : FailsInConversion v.toDouble := by
  unfold toDouble
  split
  · exact .reading _ _
  · exact .ok _
  · split
    · exact .ok _
    · exact .refuse _ _

theorem failsInConversion_toText (v : Value) : FailsInConversion v.toText := by
  cases v with
  | bytes _ | null => exact .refuse _ _
  | _ => exact .ok _

theorem failsInConversion_toUuid (v : Value) : FailsInConversion v.toUuid := by
  unfold toUuid
  split
  · exact .ok _
  · exact .reading _ _
  · exact .reading _ _
  · exact .refuse _ _

theorem failsInConversion_toDateTime (v : Value) : FailsInConversion v.toDateTime := by
  unfold toDateTime
  split
  · exact .ok _
  · exact .ok _
  · exact .reading _ _
  · exact .refuse _ _

theorem failsInConversion_toDate (v : Value) : FailsInConversion v.toDate := by
  unfold toDate
  split
  · exact .ok _
  · exact .ok _
  · split
    · exact .ok _
    · exact .map (.reading _ _) _
  · exact .refuse _ _

theorem failsInConversion_toBytes (v : Value) : FailsInConversion v.toBytes := by
  unfold toBytes
  split
  · exact .ok _
  · exact .ok _
  · exact .ok _
  · exact .refuse _ _

/-- A conversion has no other faults than those of conversion. -/
theorem failsInConversion_cast (v : Value) (t : Ty) : FailsInConversion (v.cast t) := by
  cases hnull : v.isNull with
  | true =>
    cases v with
    | null =>
      rw [cast_null]
      exact .ok _
    | _ => cases hnull
  | false =>
    induction t with
    | option inner ih =>
      rw [cast_option]
      exact ih
    | unknown =>
      rw [cast, hnull]
      exact .ok _
    | enum e =>
      rw [cast, hnull, if_neg Bool.false_ne_true]
      split
      · exact .ok _
      · exact .refuse _ _
    | bool => rw [cast, hnull]; exact v.failsInConversion_toBool.map _
    | int16 => rw [cast, hnull]; exact v.failsInConversion_toInteger16.map _
    | int32 => rw [cast, hnull]; exact v.failsInConversion_toInteger32.map _
    | int64 => rw [cast, hnull]; exact v.failsInConversion_toInteger.map _
    | double => rw [cast, hnull]; exact v.failsInConversion_toDouble.map _
    | text => rw [cast, hnull]; exact v.failsInConversion_toText.map _
    | uuid => rw [cast, hnull]; exact v.failsInConversion_toUuid.map _
    | dateTime => rw [cast, hnull]; exact v.failsInConversion_toDateTime.map _
    | date => rw [cast, hnull]; exact v.failsInConversion_toDate.map _
    | bytes => rw [cast, hnull]; exact v.failsInConversion_toBytes.map _

/-! ## Converting again -/

/-- The value as one of the type: in an enumeration the value with the code is the one that the
enumeration has for the code, and any other value is itself. -/
def namedIn (v : Value) (t : Ty) : Value :=
  match v, t.core with
  | enum value, .enum e => enum (e.valueOf value.code)
  | v, _ => v

/-- In a type that is no enumeration a value is itself. -/
theorem namedIn_eq_self (v : Value) {t : Ty} (h : ∀ e, t.core ≠ .enum e) : v.namedIn t = v := by
  unfold namedIn
  split
  · rename_i henum
    exact absurd henum (h _)
  · rfl

/-- A value of an enumeration is converted to an enumeration by its code. -/
theorem cast_enum (value : EnumValue) (e : EnumType) :
    (enum value).cast (.enum e) = .ok (enum (e.valueOf value.code)) := rfl

/-- What is not null is converted to the unknown type as it is. -/
theorem eq_of_cast_unknown {v w : Value} {t : Ty} (hunknown : t.core = .unknown)
    (h : v.cast t = .ok w) : w = v := by
  rw [← cast_core, hunknown, cast] at h
  split at h
  · rename_i hnull
    cases v with
    | null =>
      cases h
      rfl
    | _ => cases hnull
  · cases h
    rfl

/-- What a conversion gives is converted once more without a fault: a value of an enumeration gets
the name that belongs to its code, and anything else stays as it is. -/
theorem cast_again {v w : Value} {t : Ty} (h : v.cast t = .ok w) :
    w.cast t = .ok (w.namedIn t) := by
  cases hnull : v.isNull with
  | true =>
    cases v with
    | null =>
      rw [cast_null] at h
      cases h
      exact cast_null t
    | _ => cases hnull
  | false =>
    obtain ⟨hw, hbelongs⟩ := isA_of_cast hnull h
    cases hcore : t.core with
    | enum e =>
      rw [hcore] at hbelongs
      cases w with
      | enum value =>
        rw [← cast_core, hcore, cast_enum]
        simp only [namedIn, hcore]
      | _ => rcases hbelongs with hunknown | hisA <;> contradiction
    | unknown =>
      obtain rfl := eq_of_cast_unknown hcore h
      rw [h, namedIn_eq_self w (by simp [hcore])]
    | _ =>
      have henum : ∀ e, t.core ≠ .enum e := by simp [hcore]
      have hisA := hbelongs.resolve_left (by simp [hcore])
      rw [namedIn_eq_self w henum]
      exact cast_of_isA henum ((isA_core hw t).symm.trans hisA)

/-! ## The whole -/

/-- What the conversion of a value to a type keeps to. -/
structure CastsStably (v : Value) (t : Ty) : Prop where
  /-- Null is converted to null and nothing else is. -/
  null : ∀ w, v.cast t = .ok w → w.isNull = v.isNull
  /-- What is not null is converted to a value of the type. -/
  belongs : ∀ w, v.cast t = .ok w → w.isNull = false → t.core ≠ .unknown → w.isA t = true
  /-- The conversion to the unknown type changes nothing. -/
  unknown : ∀ w, v.cast t = .ok w → t.core = .unknown → w = v
  /-- What was converted is converted again, and only the name of a value of an enumeration may
  change. -/
  again : ∀ w, v.cast t = .ok w → w.cast t = .ok (w.namedIn t)
  /-- A fault is one of conversion. -/
  fault : ∀ f, v.cast t = .error f → f.kind = .conversion

/-- Every conversion lands in its target and is stable there, or fails as a conversion. -/
theorem castsStably (v : Value) (t : Ty) : CastsStably v t := by
  have hnull : ∀ w, v.cast t = .ok w → w.isNull = v.isNull := by
    intro w h
    cases hv : v.isNull with
    | true =>
      cases v with
      | null =>
        rw [cast_null] at h
        cases h
        rfl
      | _ => cases hv
    | false => exact (isA_of_cast hv h).1
  refine ⟨hnull, fun w h hw hunknown => ?_, fun w h hunknown => eq_of_cast_unknown hunknown h,
    fun w h => cast_again h, failsInConversion_cast v t⟩
  have hv : v.isNull = false := (hnull w h).symm.trans hw
  rw [← isA_core hw]
  exact (isA_of_cast hv h).2.resolve_left hunknown

end Value

end RowQuery
