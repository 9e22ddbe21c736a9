import RowQuery.Value.Arithmetic

/-!
# The order of values

Values are compared by cases on their kinds, with the integers of all widths and the codes of
enumerations in the last case of all.  Behind these cases stands one picture: apart from null and
the floating-point numbers, every value shows its content to exactly one view, the content of a view
is ordered, and two values are comparable if they show something to the same view.

Main results:

- Definition {lit}`OrderedAlong`: what shows something to a view is compared by what it shows.
- Theorem {lit}`exists_orderedAlong`: every value that is neither null nor a floating-point number
  is ordered along some view.
- Theorems {lit}`compare?_swap`, {lit}`compare?_self` and {lit}`AtMost.trans`: the order of values.
- Theorems {lit}`looseEq_self`, {lit}`looseEq_comm` and {lit}`looseEq_trans`: equality with
  promotion of numbers is an equivalence.
-/

namespace RowQuery

/-! ## Orders of contents -/

/-- Things that are compared by what a function makes of them are ordered like that. -/
theorem transCmp_along {α β : Type} (f : α → β) (order : β → β → Ordering) [Std.TransCmp order] :
    Std.TransCmp fun a b => order (f a) (f b) where
  eq_swap := Std.OrientedCmp.eq_swap
  isLE_trans := Std.TransCmp.isLE_trans

instance : Std.TransCmp Uuid.order := transCmp_along Uuid.bytes compare

instance : Std.TransCmp Date.order :=
  inferInstanceAs (Std.TransCmp
    (compareLex (compareOn Date.year) (compareLex (compareOn Date.month) (compareOn Date.day))))

instance : Std.TransCmp Time.order :=
  inferInstanceAs (Std.TransCmp (compareLex (compareOn Time.hour)
    (compareLex (compareOn Time.minute)
      (compareLex (compareOn Time.second) (compareOn Time.nano)))))

instance : Std.TransCmp DateTime.order :=
  have := transCmp_along DateTime.date Date.order
  have := transCmp_along DateTime.time Time.order
  inferInstanceAs (Std.TransCmp (compareLex (fun a b : DateTime => a.date.order b.date)
    (fun a b : DateTime => a.time.order b.time)))

namespace Value

/-! ## Views -/

/-- The identifier of an identifier value. -/
def uuid? : Value → Option Uuid
  | uuid u => some u
  | _ => none

/-- The moment of a value that is one. -/
def dateTime? : Value → Option DateTime
  | dateTime m => some m
  | _ => none

/-- The date of a date value. -/
def date? : Value → Option Date
  | date d => some d
  | _ => none

/-- The bytes of a value that has some. -/
def bytes? : Value → Option (List UInt8)
  | bytes bs => some bs
  | _ => none

/-- What shows something to the view is comparable with what does so too, and is compared by the
order of what they show.  Floating-point numbers are left out. -/
structure OrderedAlong {α : Type} (view : Value → Option α) (order : α → α → Ordering) : Prop where
  lawful : Std.TransCmp order
  compare?_eq : ∀ {a b : Value} {x : α}, view a = some x → b.isDouble = false →
    a.compare? b = (view b).map (order x)

theorem orderedAlong_bool : OrderedAlong bool? compare where
  lawful := inferInstance
  compare?_eq {a b x} ha hb := by
    cases a <;> cases ha
    cases b with
    | double _ => cases hb
    | _ => rfl

theorem orderedAlong_text : OrderedAlong text? compare where
  lawful := inferInstance
  compare?_eq {a b x} ha hb := by
    cases a <;> cases ha
    cases b with
    | double _ => cases hb
    | _ => rfl

theorem orderedAlong_uuid : OrderedAlong uuid? Uuid.order where
  lawful := inferInstance
  compare?_eq {a b x} ha hb := by
    cases a <;> cases ha
    cases b with
    | double _ => cases hb
    | _ => rfl

theorem orderedAlong_dateTime : OrderedAlong dateTime? DateTime.order where
  lawful := inferInstance
  compare?_eq {a b x} ha hb := by
    cases a <;> cases ha
    cases b with
    | double _ => cases hb
    | _ => rfl

theorem orderedAlong_date : OrderedAlong date? Date.order where
  lawful := inferInstance
  compare?_eq {a b x} ha hb := by
    cases a <;> cases ha
    cases b with
    | double _ => cases hb
    | _ => rfl

theorem orderedAlong_bytes : OrderedAlong bytes? compare where
  lawful := inferInstance
  compare?_eq {a b x} ha hb := by
    cases a <;> cases ha
    cases b with
    | double _ => cases hb
    | _ => rfl

/-- Integers of all widths and codes of enumerations are ordered by size. -/
theorem orderedAlong_integer : OrderedAlong integer? (compareOn Int64.toInt) where
  lawful := inferInstance
  compare?_eq {a b x} ha hb := by
    cases a <;> cases ha
    all_goals
      cases b with
      | double _ => cases hb
      | _ => rfl

/-- Every value that is neither null nor a floating-point number shows something to an ordered
view. -/
theorem exists_orderedAlong {a : Value} (hnull : a.isNull = false) (hdouble : a.isDouble = false) :
    ∃ (α : Type) (view : Value → Option α) (order : α → α → Ordering),
      OrderedAlong view order ∧ ∃ x, view a = some x := by
  cases a with
  | null => cases hnull
  | double _ => cases hdouble
  | bool x => exact ⟨_, _, _, orderedAlong_bool, x, rfl⟩
  | text x => exact ⟨_, _, _, orderedAlong_text, x, rfl⟩
  | uuid x => exact ⟨_, _, _, orderedAlong_uuid, x, rfl⟩
  | dateTime x => exact ⟨_, _, _, orderedAlong_dateTime, x, rfl⟩
  | date x => exact ⟨_, _, _, orderedAlong_date, x, rfl⟩
  | bytes x => exact ⟨_, _, _, orderedAlong_bytes, x, rfl⟩
  | int16 n => exact ⟨_, _, _, orderedAlong_integer, n.toInt64, rfl⟩
  | int32 n => exact ⟨_, _, _, orderedAlong_integer, n.toInt64, rfl⟩
  | int64 n => exact ⟨_, _, _, orderedAlong_integer, n, rfl⟩
  | enum e => exact ⟨_, _, _, orderedAlong_integer, e.code, rfl⟩

/-! ## Comparing -/

variable {a b c : Value}

theorem compare?_null_right (a : Value) : a.compare? null = none := by
  cases a <;> rfl

/-- Values that are comparable are not null. -/
theorem isNull_of_compare? {o : Ordering} (h : a.compare? b = some o) :
    a.isNull = false ∧ b.isNull = false := by
  constructor
  · cases a with
    | null => cases h
    | _ => rfl
  · cases b with
    | null =>
      rw [compare?_null_right] at h
      cases h
    | _ => rfl

/-- Two values that are comparable show something to the same view. -/
theorem exists_of_compare? {o : Ordering} (h : a.compare? b = some o) (ha : a.isDouble = false)
    (hb : b.isDouble = false) :
    ∃ (α : Type) (view : Value → Option α) (order : α → α → Ordering) (x y : α),
      OrderedAlong view order ∧ view a = some x ∧ view b = some y ∧ o = order x y := by
  obtain ⟨α, view, order, hview, x, hx⟩ := exists_orderedAlong (isNull_of_compare? h).1 ha
  rw [hview.compare?_eq hx hb] at h
  obtain ⟨y, hy, rfl⟩ := Option.map_eq_some_iff.1 h
  exact ⟨α, view, order, x, y, hview, hx, hy, rfl⟩

/-- A comparison that has an answer has the reverse answer the other way round. -/
theorem compare?_swap_of_eq_some {o : Ordering} (h : a.compare? b = some o)
    (ha : a.isDouble = false) (hb : b.isDouble = false) : b.compare? a = some o.swap := by
  obtain ⟨α, view, order, x, y, hview, hx, hy, rfl⟩ := exists_of_compare? h ha hb
  have := hview.lawful
  rw [hview.compare?_eq hy ha, hx, Option.map_some, ← Std.OrientedCmp.eq_swap]

/-- To compare the other way round gives the reverse answer, or none if there was none. -/
theorem compare?_swap (ha : a.isDouble = false) (hb : b.isDouble = false) :
    b.compare? a = (a.compare? b).map Ordering.swap := by
  cases hab : a.compare? b with
  | some o => exact compare?_swap_of_eq_some hab ha hb
  | none =>
    cases hba : b.compare? a with
    | none => rfl
    | some o =>
      rw [compare?_swap_of_eq_some hba hb ha] at hab
      cases hab

/-- A value is equal to itself unless it is null. -/
theorem compare?_self (ha : a.isDouble = false) :
    a.compare? a = if a.isNull then none else some .eq := by
  cases hnull : a.isNull with
  | true =>
    cases a with
    | null => rfl
    | _ => cases hnull
  | false =>
    obtain ⟨α, view, order, hview, x, hx⟩ := exists_orderedAlong hnull ha
    have := hview.lawful
    have hself : order x x = .eq := Std.ReflCmp.compare_self
    rw [hview.compare?_eq hx ha, hx, Option.map_some, hself]
    rfl

/-- The first value is less than the second one or equal to it. -/
def AtMost (a b : Value) : Prop := ∃ o, a.compare? b = some o ∧ o.isLE = true

/-- Three values of which the first two and the last two are comparable show something to the same
view. -/
theorem exists_of_compare?_of_compare? {o o' : Ordering} (hab : a.compare? b = some o)
    (hbc : b.compare? c = some o') (ha : a.isDouble = false) (hb : b.isDouble = false)
    (hc : c.isDouble = false) :
    ∃ (α : Type) (order : α → α → Ordering) (x y z : α), Std.TransCmp order ∧
      o = order x y ∧ o' = order y z ∧ a.compare? c = some (order x z) := by
  obtain ⟨α, view, order, x, y, hview, hx, hy, rfl⟩ := exists_of_compare? hab ha hb
  rw [hview.compare?_eq hy hc] at hbc
  obtain ⟨z, hz, rfl⟩ := Option.map_eq_some_iff.1 hbc
  refine ⟨α, order, x, y, z, hview.lawful, rfl, rfl, ?_⟩
  rw [hview.compare?_eq hx hc, hz, Option.map_some]

/-- Less than or equal to is transitive. -/
theorem AtMost.trans (hab : a.AtMost b) (hbc : b.AtMost c) (ha : a.isDouble = false)
    (hb : b.isDouble = false) (hc : c.isDouble = false) : a.AtMost c := by
  obtain ⟨o, hab, hle⟩ := hab
  obtain ⟨o', hbc, hle'⟩ := hbc
  obtain ⟨α, order, x, y, z, horder, rfl, rfl, hac⟩ :=
    exists_of_compare?_of_compare? hab hbc ha hb hc
  exact ⟨order x z, hac, Std.TransCmp.isLE_trans hle hle'⟩

/-! ## Equality with promotion -/

theorem looseEq_iff : a.looseEq b = true ↔
    (a.isNull = true ∧ b.isNull = true) ∨ a.compare? b = some .eq := by
  simp [looseEq]

/-- Comparable values are equal if their order says so. -/
theorem looseEq_of_compare? {o : Ordering} (h : a.compare? b = some o) : a.looseEq b = o.isEq := by
  rw [looseEq, h, (isNull_of_compare? h).1]
  cases o <;> rfl

/-- Values that are not comparable are equal if both are null. -/
theorem looseEq_of_compare?_eq_none (h : a.compare? b = none) :
    a.looseEq b = (a.isNull && b.isNull) := by
  simp [looseEq, h]

/-- Null is equal to null and to nothing else. -/
theorem looseEq_null (a : Value) : a.looseEq null = a.isNull := by
  rw [looseEq_of_compare?_eq_none (compare?_null_right a)]
  exact Bool.and_true _

theorem looseEq_self (ha : a.isDouble = false) : a.looseEq a = true := by
  rw [looseEq_iff, compare?_self ha]
  cases a.isNull <;> simp

theorem looseEq_comm (ha : a.isDouble = false) (hb : b.isDouble = false) :
    a.looseEq b = b.looseEq a := by
  cases hab : a.compare? b with
  | some o =>
    rw [looseEq_of_compare? hab, looseEq_of_compare? (compare?_swap_of_eq_some hab ha hb)]
    cases o <;> rfl
  | none =>
    have hba : b.compare? a = none := by rw [compare?_swap ha hb, hab]; rfl
    rw [looseEq_of_compare?_eq_none hab, looseEq_of_compare?_eq_none hba, Bool.and_comm]

theorem looseEq_trans (hab : a.looseEq b = true) (hbc : b.looseEq c = true)
    (ha : a.isDouble = false) (hb : b.isDouble = false) (hc : c.isDouble = false) :
    a.looseEq c = true := by
  rw [looseEq_iff] at *
  rcases hab with ⟨hanull, hbnull⟩ | hab
  · rcases hbc with ⟨-, hcnull⟩ | hbc
    · exact .inl ⟨hanull, hcnull⟩
    · rw [(isNull_of_compare? hbc).1] at hbnull
      cases hbnull
  · rcases hbc with ⟨hbnull, -⟩ | hbc
    · rw [(isNull_of_compare? hab).2] at hbnull
      cases hbnull
    · obtain ⟨α, order, x, y, z, horder, hxy, hyz, hac⟩ :=
        exists_of_compare?_of_compare? hab hbc ha hb hc
      exact .inr (hac.trans (congrArg some (Std.TransCmp.eq_trans hxy.symm hyz.symm)))

end Value

end RowQuery
