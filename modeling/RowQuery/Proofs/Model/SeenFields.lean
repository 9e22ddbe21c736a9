import RowQuery.Model.Materializer
import RowQuery.Proofs.Outcome

/-!
# What a factory sees of the fields

A factory is compiled from the names of the fields and from the types of their values.  Of a type
it only matters whether a place can have the very same type, for then the value is handed over as
it is and not converted.  Enumerations and the unknown type are never handed over, so that a
factory cannot tell them apart.

Main results:

- Definition {lit}`Field.seen`: what a factory sees of a field.
- Theorem {lit}`Reading.read_choose`: how a field is read follows from what is seen of it.
- Theorem {lit}`Factory.compile_seen`: two lists of fields that look the same give factories that
  make the same results.
-/

namespace RowQuery

open Outcome

/-! ## Fields -/

/-- The type of the places that take a value of this type as it is.  There is none for
enumerations and for the unknown type. -/
def Ty.direct? (t : Ty) : Option Ty :=
  match t.core with
  | .enum _ => none
  | .unknown => none
  | core => some core

/-- The places that take a value of a type as it is have the core of the type. -/
theorem Ty.core_of_direct? {t c : Ty} (h : t.direct? = some c) : t.core = c := by
  unfold direct? at h
  split at h
  · cases h
  · cases h
  · exact Option.some.inj h

/-- A place of a type takes the values of the same core, unless it is an enumeration or
unknown. -/
theorem Ty.direct?_eq_some_iff {t c : Ty} (henum : ∀ e, c ≠ .enum e) (hunknown : c ≠ .unknown) :
    t.direct? = some c ↔ t.core = c := by
  constructor
  · exact core_of_direct?
  · intro h
    subst h
    unfold direct?
    split
    · exact absurd ‹_› (henum _)
    · exact absurd ‹_› hunknown
    · rfl

/-- What a factory sees of a field: its name, and the type of the places that take its values as
they are. -/
def Field.seen (f : Field) : String × Option Ty := (f.name, f.ty.direct?)

/-! ## Readings -/

namespace Reading

/-- What happens to a value that is not null on its way to a place, from what is seen of the type
of the field. -/
def conversion (seen : Option Ty) (place : Ty) (converter : Option Converter) (v : Value) :
    Except Fault Value :=
  match converter, place.core with
  | some c, _ => c.read v
  | none, .enum e => v.cast (.enum e)
  | none, core =>
    if core = .text ∧ seen = some .uuid then Converter.readUuidText v
    else if seen = some core then v.take core
    else v.cast core

/-- Reads a value and converts it; null is nothing. -/
def readThrough (ordinal : Nat) (convert : Value → Except Fault Value) (r : Row) :
    Except Fault (Option Value) := do
  let v ← r.value ordinal
  if v.isNull then return none
  return some (← convert v)

/-- To read a value directly is to read it and to hand it over. -/
theorem read_direct (ordinal : Nat) (ty : Ty) (r : Row) :
    (direct ordinal ty).read r = readThrough ordinal (·.take ty) r := by
  cases hvalue : r.value ordinal with
  | error f =>
    simp [read, readThrough, Row.isNull, hvalue, Except.map, bind, Except.bind]
  | ok v =>
    cases hnull : v.isNull <;>
      simp [read, readThrough, Row.isNull, Row.take, hvalue, hnull, Except.map, bind, Except.bind]

/-- A conversion may be replaced by one that does the same with all values but null. -/
theorem readThrough_congr {ordinal : Nat} {f g : Value → Except Fault Value} {r : Row}
    (h : ∀ v, v.isNull = false → f v = g v) :
    readThrough ordinal f r = readThrough ordinal g r := by
  unfold readThrough
  cases r.value ordinal with
  | error f => rfl
  | ok v =>
    cases hnull : v.isNull with
    | true => simp [bind, Except.bind, hnull]
    | false => simp [bind, Except.bind, hnull, h v hnull]

/-- A place that is no enumeration is chosen a reading by the cores of the types. -/
theorem choose_none {ordinal : Nat} {source place : Ty} (h : ∀ e, place.core ≠ .enum e) :
    choose ordinal source place none =
      if place.core = .text ∧ source.core = .uuid then converted ordinal .uuidText
      else if source.core ≠ place.core then converted ordinal (.general place source)
      else direct ordinal place.core := by
  unfold choose
  split
  · contradiction
  · exact absurd ‹_› (h _)
  · rfl

/-- A place that is no enumeration is chosen a conversion by what is seen of the field. -/
theorem conversion_none {seen : Option Ty} {place : Ty} (h : ∀ e, place.core ≠ .enum e)
    (v : Value) :
    conversion seen place none v =
      if place.core = .text ∧ seen = some .uuid then Converter.readUuidText v
      else if seen = some place.core then v.take place.core
      else v.cast place.core := by
  unfold conversion
  split
  · contradiction
  · exact absurd ‹_› (h _)
  · rfl

/-- How a field is read follows from what is seen of its type. -/
theorem read_choose (ordinal : Nat) (source place : Ty) (converter : Option Converter) (r : Row) :
    (choose ordinal source place converter).read r =
      readThrough ordinal (conversion source.direct? place converter) r := by
  cases converter with
  | some c => rfl
  | none =>
    by_cases henum : ∃ e, place.core = .enum e
    · obtain ⟨e, he⟩ := henum
      have hread : (choose ordinal source place none).read r =
          readThrough ordinal (Converter.enumeration e).read r := by
        simp only [choose, he]
        rfl
      rw [hread]
      apply readThrough_congr
      intro v _
      simp only [conversion, he]
      rfl
    have hplace : ∀ e, place.core ≠ .enum e := fun e he => henum ⟨e, he⟩
    have huuid : source.direct? = some .uuid ↔ source.core = .uuid :=
      Ty.direct?_eq_some_iff (by simp) (by simp)
    rw [choose_none hplace]
    by_cases htext : place.core = .text ∧ source.core = .uuid
    · rw [if_pos htext]
      apply readThrough_congr
      intro v _
      rw [conversion_none hplace, if_pos ⟨htext.1, huuid.2 htext.2⟩]
      rfl
    have htext' : ¬(place.core = .text ∧ source.direct? = some .uuid) :=
      fun h => htext ⟨h.1, huuid.1 h.2⟩
    rw [if_neg htext]
    by_cases hcore : source.core = place.core
    · rw [if_neg (not_not_intro hcore), read_direct]
      apply readThrough_congr
      intro v hnull
      rw [conversion_none hplace, if_neg htext']
      by_cases hunknown : place.core = .unknown
      · -- a value reaches a place of unknown type as it is, directly or not
        rw [hunknown]
        split
        · rfl
        · simp [Value.take, Value.cast, Ty.core, hnull]
      · rw [if_pos ((Ty.direct?_eq_some_iff hplace hunknown).2 hcore)]
    · rw [if_pos hcore]
      apply readThrough_congr
      intro v _
      rw [conversion_none hplace, if_neg htext', if_neg fun h => hcore (Ty.core_of_direct? h)]
      rfl

end Reading

/-! ## Factories of models -/

namespace ModelFactory

variable {α : Type}

/-- Sets the property of a field from what is seen of the field. -/
def visit (m : Model α) (r : Row) (a : α) (seen : String × Option Ty) (ordinal : Nat) :
    Except Fault α :=
  match m.table.ofField? seen.1 with
  | none => .ok a
  | some column =>
    if (m.injected? column.property).isSome then .ok a
    else
      match m.setter? column.property with
      | none => .ok a
      | some set => do
        let convert := Reading.conversion seen.2 column.ty column.converter
        match ← naming m.typeName column.property (Reading.readThrough ordinal convert r) with
        | some v => naming m.typeName column.property (set a v)
        | none => return a

/-- The step of a field does what follows from what is seen of the field. -/
theorem visit_seen (m : Model α) (r : Row) (a : α) (field : Field) (ordinal : Nat) :
    visit m r a field.seen ordinal =
      match fieldStep? m ordinal field with
      | some step => setProperty m.typeName r a step
      | none => .ok a := by
  unfold visit fieldStep? Field.seen
  cases m.table.ofField? field.name with
  | none => rfl
  | some column =>
    simp only [Option.bind_eq_bind, Option.bind_some]
    split
    · rfl
    · cases m.setter? column.property with
      | none => rfl
      | some set =>
        rw [← Reading.read_choose]
        rfl

/-- The steps of all fields do what follows from what is seen of the fields. -/
theorem foldlM_fieldSteps (m : Model α) (r : Row) (fields : List Field) (fresh : α) :
    (fieldSteps m fields).foldlM (setProperty m.typeName r) fresh =
      (fields.map Field.seen).zipIdx.foldlM (fun a p => visit m r a p.1 p.2) fresh := by
  rw [fieldSteps, List.foldlM_filterMap, List.zipIdx_map, List.foldlM_map]
  congr 1
  funext a p
  obtain ⟨field, ordinal⟩ := p
  dsimp only [Prod.map, id]
  rw [visit_seen]
  cases fieldStep? m ordinal field <;> rfl

/-- The place of a field follows from the names of the fields. -/
theorem ordinal?_eq (fields : List Field) (name : String) :
    Field.ordinal? fields name =
      (fields.map Field.seen).findIdx? fun seen => Text.sameName seen.1 name := by
  rw [List.findIdx?_map]
  rfl

/-- How a parameter is read follows from what is seen of the fields. -/
theorem read_argumentReading {a b : List Field} (h : a.map Field.seen = b.map Field.seen)
    (m : Model α) (name : String) (ty : Ty) (r : Row) :
    (argumentReading m a name ty).read r = (argumentReading m b name ty).read r := by
  unfold argumentReading
  cases m.injected? name with
  | some v => rfl
  | none =>
    simp only [ordinal?_eq, h]
    generalize ((m.table.ofMember? name).bind fun c => List.findIdx?
      (fun seen => Text.sameName seen.1 c.name) (b.map Field.seen)).or
      (List.findIdx? (fun seen => Text.sameName seen.1 name) (b.map Field.seen)) = ordinal
    cases ordinal with
    | none => rfl
    | some i =>
      have hseen : a[i]?.map Field.seen = b[i]?.map Field.seen := by
        rw [← List.getElem?_map, ← List.getElem?_map, h]
      cases ha : a[i]? with
      | none =>
        cases hb : b[i]? with
        | none => simp [ha, hb]
        | some f => simp [ha, hb] at hseen
      | some f =>
        cases hb : b[i]? with
        | none => simp [ha, hb] at hseen
        | some g =>
          have hty : f.ty.direct? = g.ty.direct? := by
            simp only [ha, hb, Option.map_some, Option.some.injEq] at hseen
            exact congrArg Prod.snd hseen
          simp [ha, hb, Reading.read_choose, hty]

/-- Fields that look the same give factories that make the same instances. -/
theorem compile_seen {a b : List Field} (h : a.map Field.seen = b.map Field.seen) (m : Model α) :
    (compile m a).map build = (compile m b).map build := by
  unfold compile plan?
  split
  · rename_i fresh _ _
    generalize (m.injected.mapM _ : Except Fault (List (PropertyStep α))) = steps
    cases steps with
    | error f => rfl
    | ok injected =>
      refine congrArg Except.ok (funext fun r => ?_)
      simp only [build, run, List.foldlM_append, foldlM_fieldSteps, h]
  · rename_i constructor _ _
    refine congrArg Except.ok (funext fun r => ?_)
    have harguments : argument m.typeName r ∘ argumentStep m a =
        argument m.typeName r ∘ argumentStep m b := by
      funext parameter
      simp only [Function.comp_apply, argument, argumentStep, read_argumentReading h]
    simp only [build, run, List.mapM_map, harguments]
  · rfl

end ModelFactory

/-! ## All factories -/

/-- Fields that look the same give factories that make the same results of one value. -/
theorem ScalarFactory.compile_seen {a b : List Field} (h : a.map Field.seen = b.map Field.seen)
    (s : Scalar) : (compile s a).map build = (compile s b).map build := by
  cases a with
  | nil =>
    cases b with
    | nil => rfl
    | cons g rest => simp at h
  | cons f rest =>
    cases b with
    | nil => simp at h
    | cons g rest' =>
      have hty : f.ty.direct? = g.ty.direct? :=
        congrArg Prod.snd (List.cons.inj h).1
      refine congrArg Except.ok (funext fun r => ?_)
      simp only [build, Reading.read_choose, hty]

/-- Fields that look the same give factories that make the same results. -/
theorem Factory.compile_seen {α : Type} {a b : List Field}
    (h : a.map Field.seen = b.map Field.seen) (t : Target α) :
    (compile t a).map build = (compile t b).map build := by
  cases t with
  | model m =>
    have hbuild := congrArg (Except.map fun f r => (f r).map Item.instance)
      (ModelFactory.compile_seen h m)
    rw [map_map, map_map] at hbuild
    simp only [compile, map_map]
    exact hbuild
  | scalar s =>
    have hbuild := congrArg (Except.map fun f r => (f r).map (Item.scalar (α := α)))
      (ScalarFactory.compile_seen h s)
    rw [map_map, map_map] at hbuild
    simp only [compile, map_map]
    exact hbuild

end RowQuery
