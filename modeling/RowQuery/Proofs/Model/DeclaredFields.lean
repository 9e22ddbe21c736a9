import RowQuery.Proofs.Model.SeenFields
import RowQuery.Proofs.Value.Casting

/-!
# Fields that hold what they declare

How a field is read into a place is chosen from its declared type and from the type of the place:
its value is handed over as it is, becomes the value of an enumeration or the text of an identifier,
or is converted.  This module says that the choice is one of speed alone.  As long as the field
holds null or a value of its declared type, each way gives what the general conversion gives.

Main results:

- Theorem {lit}`Reading.conversion_declared`: each way converts a value of the declared type alike.
- Theorem {lit}`read_declared`: a field that holds what it declares is read as the general
  conversion, into any place and as the only value of a result.
-/

namespace RowQuery

open Outcome

namespace Reading

/-! ## Ways to convert -/

/-- A value of a type that has identifiers as its core is an identifier. -/
theorem exists_uuid_of_isA {v : Value} {source : Ty} (hnull : v.isNull = false)
    (hsource : source.core = .uuid) (h : v.isA source = true) : ∃ u, v = .uuid u := by
  rw [← Value.isA_core hnull, hsource] at h
  cases v with
  | uuid u => exact ⟨u, rfl⟩
  | _ => cases h

/-- A value of its declared type goes to a place by the general conversion, whichever way was chosen
for its field. -/
theorem conversion_declared {v : Value} {source : Ty} (hnull : v.isNull = false)
    (h : v.isA source = true) (place : Ty) :
    conversion source.direct? place none v = v.cast place := by
  by_cases henum : ∃ e, place.core = .enum e
  · obtain ⟨e, he⟩ := henum
    rw [← Value.cast_core, he]
    simp only [conversion, he]
  have hplace : ∀ e, place.core ≠ .enum e := fun e he => henum ⟨e, he⟩
  rw [conversion_none hplace]
  split
  · -- the text of an identifier is what the identifier is converted to
    rename_i htext
    obtain ⟨u, rfl⟩ := exists_uuid_of_isA hnull (Ty.core_of_direct? htext.2) h
    rw [← Value.cast_core, htext.1]
    rfl
  split
  · -- a value of the type of the place is its own conversion
    rename_i hdirect
    have hisA : v.isA place.core = true := by
      rwa [← Ty.core_of_direct? hdirect, Value.isA_core hnull]
    rw [Value.cast_of_isA hplace (by rwa [← Value.isA_core hnull])]
    exact Value.take_of_isA (.inr (by rwa [Ty.core_core]))
  · exact Value.cast_core v place

/-- A field that holds null or a value of its declared type is read into a place as the general
conversion to the core of the place. -/
theorem read_choose_declared {r : Row} {ordinal : Nat} {source : Ty} {v : Value}
    (hvalue : r.value ordinal = .ok v) (h : v.isNull = true ∨ v.isA source = true) (place : Ty) :
    (choose ordinal source place none).read r =
      if v.isNull then .ok none else (v.cast place.core).map some := by
  have hread : (choose ordinal source place none).read r =
      if v.isNull then .ok none else (conversion source.direct? place none v).map some := by
    rw [read_choose, readThrough, hvalue]
    rfl
  rw [hread]
  cases hnull : v.isNull with
  | true => rfl
  | false =>
    have hisA : v.isA source = true := h.resolve_left (by simp [hnull])
    rw [conversion_declared hnull hisA, Value.cast_core]

end Reading

/-! ## Results of one value -/

/-- A result of one value is made of a first field that holds null or a value of its declared type:
of the default for null, else of what the value is converted to. -/
theorem build_declared {r : Row} {field : Field} {v : Value} (hfield : r.fields[0]? = some field)
    (hvalue : r.value 0 = .ok v) (h : v.isNull = true ∨ v.isA field.ty = true) (s : Scalar) :
    (ScalarFactory.compile s r.fields >>= fun f => f.build r) =
      if v.isNull then s.ty.default.take s.ty else v.cast s.ty := by
  obtain ⟨rest, hfields⟩ : ∃ rest, r.fields = field :: rest := by
    cases hfields : r.fields with
    | nil => simp [hfields] at hfield
    | cons first rest =>
      rw [hfields, List.getElem?_cons_zero, Option.some.injEq] at hfield
      exact ⟨rest, by rw [hfield]⟩
  have hread := Reading.read_choose_declared hvalue h s.ty
  rw [hfields]
  change ((Reading.choose 0 field.ty s.ty none).read r >>= _) = _
  rw [hread, Value.cast_core]
  cases hnull : v.isNull with
  | true => rfl
  | false =>
    -- what was converted to the type of the result is a result
    cases hcast : v.cast s.ty with
    | error f => rfl
    | ok w => exact Value.take_of_cast hnull hcast

/-- A field that holds null or a value of its declared type, and whose column has no converter, is
read as the general conversion, whichever way was chosen from the types: null is read as nothing,
and any other value as what it is converted to, with the same fault where it cannot be.  A result of
one value that is read from such a field is the default of its type for null, and else what the
value is converted to, if it can be converted. -/
theorem read_declared {r : Row} {ordinal : Nat} {field : Field} {v : Value}
    (hfield : r.fields[ordinal]? = some field) (hvalue : r.value ordinal = .ok v)
    (h : v.isNull = true ∨ v.isA field.ty = true) :
    (∀ place, (Reading.choose ordinal field.ty place none).read r =
      if v.isNull then .ok none else (v.cast place.core).map some) ∧
    (ordinal = 0 → ∀ s : Scalar, (ScalarFactory.compile s r.fields >>= fun f => f.build r) =
      if v.isNull then s.ty.default.take s.ty else v.cast s.ty) := by
  constructor
  · exact Reading.read_choose_declared hvalue h
  · rintro rfl s
    exact build_declared hfield hvalue h s

/-- A row whose first field declares that it may be null and holds a number of 32 bits. -/
def visitors : Row where
  fields := [⟨"Visitors", "int", .option .int32⟩]
  value _ := .ok (.int32 40000)

/-- The number is handed over to a place of its type, widened and written as text, and does not fit
in 16 bits. -/
theorem read_declared_visitors :
    visitors.fields[0]? = some ⟨"Visitors", "int", .option .int32⟩ ∧
      visitors.value 0 = .ok (.int32 40000) ∧
      (Value.int32 40000).isA (.option .int32) = true ∧
      (Reading.choose 0 (.option .int32) .int32 none).read visitors = .ok (some (.int32 40000)) ∧
      (Reading.choose 0 (.option .int32) .text none).read visitors = .ok (some (.text "40000")) ∧
      (ScalarFactory.compile ⟨"i64", .int64⟩ visitors.fields >>= fun f => f.build visitors) =
        .ok (.int64 40000) ∧
      (ScalarFactory.compile ⟨"i16", .int16⟩ visitors.fields >>= fun f => f.build visitors) =
        .error (Fault.mismatch .int32 .int16) := by
  have hfield : visitors.fields[0]? = some ⟨"Visitors", "int", .option .int32⟩ := rfl
  have hvalue : visitors.value 0 = .ok (.int32 40000) := rfl
  have h := read_declared hfield hvalue (.inr rfl)
  exact ⟨hfield, hvalue, rfl, h.1 .int32, h.1 .text, h.2 rfl ⟨"i64", .int64⟩,
    h.2 rfl ⟨"i16", .int16⟩⟩

end RowQuery
