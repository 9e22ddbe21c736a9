import Mathlib.Data.Option.Basic
import RowQuery.Model.Factory
import RowQuery.Proofs.Outcome

/-!
# Instances made from the fields and from the arguments

The properties of an instance may be set one after the other, or be handed to a constructor.  The
first way walks the fields of the row and looks up their columns, so of several fields of one column
the last one counts that is not null in the row, and all of them have to be readable.  The second
way walks the columns and looks up a field of each: the first one with the name of the column, else
the first one with the name of the property.  Both ways agree on rows with at most one field for
each column, and this module says when they agree on the others.  A column may have any converter:
what it makes of a value that is not null in the row counts, even if that is null.

Main results:

- Definition {lit}`Table.Apart`: no name of one column is a name of another one.
- Theorems {lit}`made_populated` and {lit}`made_constructed`: what each way makes of a row.
- Theorem {lit}`made_populated_eq_iff`: when both ways agree.
-/

namespace RowQuery

open Outcome

/-! ## Columns and their fields -/

namespace Column

/-- A name for the column: its own or that of its property. -/
def answersTo (c : Column) (name : String) : Bool :=
  Text.sameName c.name name || Text.sameName c.property name

/-- The fields of a column with their ordinals. -/
def fed (c : Column) (fields : List Field) : List (Field × Nat) :=
  fields.zipIdx.filter fun p => c.answersTo p.1.name

/-- The field that a parameter takes: of the fields of the column the first one with its name, else
the first one. -/
def chosen? (c : Column) (fields : List Field) : Option (Field × Nat) :=
  ((c.fed fields).find? fun p => Text.sameName p.1.name c.name).or (c.fed fields).head?

/-- Reads a field into a place of the column; null in the row is nothing. -/
def readAs (c : Column) (r : Row) (p : Field × Nat) : Except Fault (Option Value) :=
  (Reading.choose p.2 p.1.ty c.ty c.converter).read r

/-- The value of a property that is set from each field of its column: all of them are read, and
what was read last from a field that is not null stays. -/
def assigned? (c : Column) (r : Row) : Option Value :=
  ((c.fed r.fields).mapM fun p => (c.readAs r p).toOption).map fun values =>
    (values.filterMap id).getLastD c.ty.default

/-- The value of a parameter: one field is read, and the default stands in for a field that is null
or missing. -/
def taken? (c : Column) (r : Row) : Option Value :=
  match c.chosen? r.fields with
  | some p => (c.readAs r p).toOption.map (·.getD c.ty.default)
  | none => some c.ty.default

end Column

namespace Table

/-- No name of a column is a name of another one. -/
def Apart (t : Table) : Prop :=
  t.columns.Pairwise fun c other =>
    ¬ other.answersTo c.name ∧ ¬ other.answersTo c.property

instance (t : Table) : Decidable t.Apart :=
  inferInstanceAs (Decidable (List.Pairwise _ _))

end Table

/-! ## Two models of a table -/

/-- An instance with a value for each of its properties. -/
abbrev Slots := List (String × Value)

namespace Slots

/-- Stores a value in a property. -/
def store (property : String) (v : Value) (a : Slots) : Slots :=
  a.map fun slot => if slot.1 = property then (property, v) else slot

end Slots

namespace Table

/-- The model whose instances start with the defaults of all properties, each of which can be
set. -/
def populated (t : Table) (typeName : String) : Model Slots where
  typeName
  table := t
  fresh := some (t.columns.map fun c => (c.property, c.ty.default))
  constructors := []
  setters := t.columns.map fun c => (c.property, fun a v => .ok (Slots.store c.property v a))
  injected := []
  finish := none

/-- The model whose instances are made by a constructor with a parameter for each column. -/
def constructed (t : Table) (typeName : String) : Model Slots where
  typeName
  table := t
  fresh := none
  constructors := [
    { parameters := t.columns.map fun c => (c.property, c.ty)
      build := fun values => .ok ((t.columns.map Column.property).zip values) }]
  setters := []
  injected := []
  finish := none

end Table

/-- The instance that a model makes of a row, if it can make one. -/
def Model.made? {α : Type} (m : Model α) (r : Row) : Option α :=
  (ModelFactory.compile m r.fields >>= fun f => f.build r).toOption

/-! ## Searches -/

section Searches

variable {α : Type}

/-- The only element with a property is found. -/
theorem find?_eq_some_of_unique {p : α → Bool} {a : α} {l : List α} (ha : a ∈ l) (hp : p a = true)
    (h : ∀ b ∈ l, p b = true → b = a) : l.find? p = some a := by
  cases hfound : l.find? p with
  | none => exact absurd hp (List.find?_eq_none.1 hfound a ha)
  | some b => rw [h b (List.mem_of_find?_eq_some hfound) (List.find?_some hfound)]

/-- Two searches one after the other are one if at most one element can be found. -/
theorem find?_or_find? {p q : α → Bool} {l : List α}
    (h : ∀ a ∈ l, ∀ b ∈ l, (p a || q a) = true → (p b || q b) = true → a = b) :
    (l.find? p).or (l.find? q) = l.find? fun a => p a || q a := by
  cases hboth : l.find? fun a => p a || q a with
  | none =>
    have hnone := List.find?_eq_none.1 hboth
    simp only [Bool.not_eq_true, Bool.or_eq_false_iff] at hnone
    rw [List.find?_eq_none.2 fun a ha => by simp [(hnone a ha).1],
      List.find?_eq_none.2 fun a ha => by simp [(hnone a ha).2], Option.or_none]
  | some a =>
    have ha := List.mem_of_find?_eq_some hboth
    have hfound := List.find?_some hboth
    have hfirst : ∀ b ∈ l, p b = true → b = a :=
      fun b hb hpb => h b hb a ha (by simp [hpb]) hfound
    have hsecond : ∀ b ∈ l, q b = true → b = a :=
      fun b hb hqb => h b hb a ha (by simp [hqb]) hfound
    by_cases hp : p a = true
    · rw [find?_eq_some_of_unique ha hp hfirst, Option.some_or]
    · have hq : q a = true := by simpa [hp] using hfound
      have hnone : l.find? p = none :=
        List.find?_eq_none.2 fun b hb hpb => hp (hfirst b hb hpb ▸ hpb)
      rw [hnone, Option.none_or, find?_eq_some_of_unique ha hq hsecond]

/-- Behind a search for one of two properties it is enough to search for the other one. -/
theorem find?_or_find?_or (p q : α → Bool) (l : List α) :
    (l.find? p).or (l.find? fun a => p a || q a) = (l.find? p).or (l.find? q) := by
  induction l with
  | nil => rfl
  | cons a rest ih =>
    by_cases hp : p a = true
    · rw [List.find?_cons_of_pos hp, Option.some_or, Option.some_or]
    · by_cases hq : q a = true
      · have hboth : (p a || q a) = true := by simp [hq]
        rw [List.find?_cons_of_neg hp, List.find?_cons_of_pos hq,
          List.find?_cons_of_pos (p := fun b => p b || q b) hboth]
      · have hneither : ¬ (p a || q a) = true := by simp [hp, hq]
        rw [List.find?_cons_of_neg hp, List.find?_cons_of_neg hq,
          List.find?_cons_of_neg (p := fun b => p b || q b) hneither, ih]

end Searches

/-- Without a last step an instance is what the plan makes of the row. -/
theorem Model.made?_eq_run {α : Type} {m : Model α} {r : Row} {plan : Plan α}
    (hplan : ModelFactory.plan? m r.fields = .ok plan) (hfinish : m.finish = none) :
    m.made? r = (ModelFactory.run m.typeName r plan).toOption := by
  have hcompiled : ModelFactory.compile m r.fields = .ok ⟨m.typeName, plan, none⟩ := by
    rw [ModelFactory.compile, hplan, hfinish]
    rfl
  have hbuild : ModelFactory.build ⟨m.typeName, plan, none⟩ r =
      ModelFactory.run m.typeName r plan := bind_pure _
  rw [made?, hcompiled]
  exact congrArg Except.toOption hbuild

/-! ## Looking columns up -/

namespace Column

/-- A column answers to a name that differs from one of its own at most in ASCII case. -/
theorem answersTo_iff {c : Column} {name : String} :
    c.answersTo name = true ↔
      Text.foldAscii c.name = Text.foldAscii name ∨
        Text.foldAscii c.property = Text.foldAscii name := by
  rw [answersTo, Bool.or_eq_true, Text.sameName_iff, Text.sameName_iff]

/-- A column answers to the name of its property. -/
theorem answersTo_property (c : Column) : c.answersTo c.property = true :=
  answersTo_iff.2 (.inr rfl)

end Column

namespace Table

variable {t : Table}

/-- Only one column answers to a name. -/
theorem Apart.eq_of_answersTo (h : t.Apart) {c other : Column} {name : String}
    (hc : c ∈ t.columns) (hother : other ∈ t.columns) (hname : c.answersTo name = true)
    (hname' : other.answersTo name = true) : c = other := by
  have hclash {c other : Column} (hname : c.answersTo name = true)
      (hname' : other.answersTo name = true) :
      ¬ (¬ other.answersTo c.name ∧ ¬ other.answersTo c.property) := by
    simp only [Column.answersTo_iff] at *
    grind
  rcases List.getElem_of_mem hc with ⟨i, hi, rfl⟩
  rcases List.getElem_of_mem hother with ⟨j, hj, rfl⟩
  have hpairs := List.pairwise_iff_getElem.1 h
  rcases Nat.lt_trichotomy i j with hij | rfl | hji
  · exact absurd (hpairs i j hi hj hij) (hclash hname hname')
  · rfl
  · exact absurd (hpairs j i hj hi hji) (hclash hname' hname)

/-- Only one column holds a property. -/
theorem Apart.eq_of_property (h : t.Apart) {c other : Column} (hc : c ∈ t.columns)
    (hother : other ∈ t.columns) (hsame : c.property = other.property) : c = other :=
  h.eq_of_answersTo hc hother (hsame ▸ c.answersTo_property) other.answersTo_property

/-- The column of a field is the only one that answers to its name. -/
theorem ofField?_eq (h : t.Apart) (name : String) :
    t.ofField? name = t.columns.find? (·.answersTo name) :=
  find?_or_find? fun _ hc _ hother hname hname' => h.eq_of_answersTo hc hother hname hname'

/-- The column of a member is the one that answers to its name, too. -/
theorem ofMember?_eq (h : t.Apart) (name : String) :
    t.ofMember? name = t.columns.find? (·.answersTo name) := by
  have hcomm (c : Column) : (Text.sameName c.property name || Text.sameName c.name name) =
      c.answersTo name := Bool.or_comm _ _
  rw [ofMember?, byProperty?, byName?, find?_or_find?]
  · simp only [hcomm]
  · intro c hc other hother hname hname'
    rw [hcomm] at hname hname'
    exact h.eq_of_answersTo hc hother hname hname'

/-- A column of the table is found under each name to which it answers. -/
theorem Apart.find?_answersTo (h : t.Apart) {c : Column} {name : String} (hc : c ∈ t.columns)
    (hname : c.answersTo name = true) : t.columns.find? (·.answersTo name) = some c :=
  find?_eq_some_of_unique hc hname fun _ hother hname' =>
    h.eq_of_answersTo hother hc hname' hname

/-! ## Properties that are set -/

/-- An instance with a value for each column. -/
def filled (t : Table) (value : Column → Value) : Slots :=
  t.columns.map fun c => (c.property, value c)

/-- To store a value in the property of a column leaves the other properties alone. -/
theorem store_filled (c : Column) (v : Value) (value : Column → Value) :
    Slots.store c.property v (t.filled value) =
      t.filled fun other => if other.property = c.property then v else value other := by
  rw [Slots.store, filled, filled, List.map_map]
  refine List.map_congr_left fun other _ => ?_
  by_cases hsame : other.property = c.property <;> simp [hsame]

/-- The property of each column can be set. -/
theorem setter?_populated (h : t.Apart) {c : Column} (hc : c ∈ t.columns) (typeName : String) :
    (t.populated typeName).setter? c.property =
      some fun a v => .ok (Slots.store c.property v a) := by
  have hfound :
      t.columns.find? (fun other => Text.sameName other.property c.property) = some c := by
    refine find?_eq_some_of_unique hc (Text.sameName_refl _) fun other hother hsame => ?_
    have hname : other.answersTo c.property = true :=
      Column.answersTo_iff.2 (.inr (Text.sameName_iff.1 hsame))
    exact h.eq_of_answersTo hother hc hname c.answersTo_property
  rw [Model.setter?, Model.find?, populated, List.find?_map]
  simp only [Function.comp_def, hfound]
  rfl

/-- The step of a field stores it in the property of its column. -/
theorem fieldStep?_populated (h : t.Apart) (typeName : String) (p : Field × Nat) :
    ModelFactory.fieldStep? (t.populated typeName) p.2 p.1 =
      (t.columns.find? (·.answersTo p.1.name)).map fun c =>
        ⟨c.property, Reading.choose p.2 p.1.ty c.ty c.converter,
          fun a v => .ok (Slots.store c.property v a)⟩ := by
  have htable : (t.populated typeName).table = t := rfl
  rw [ModelFactory.fieldStep?, htable, ofField?_eq h]
  cases hfound : t.columns.find? (·.answersTo p.1.name) with
  | none => rfl
  | some c =>
    have hinjected : ((t.populated typeName).injected? c.property).isSome = false := rfl
    simp only [Option.bind_eq_bind, Option.bind_some, hinjected,
      setter?_populated h (List.mem_of_find?_eq_some hfound)]
    rfl

variable {r : Row}

/-- The step of a column reads the field and stores what was read, if anything. -/
theorem toOption_setProperty (typeName : String) (p : Field × Nat) (c : Column)
    (value : Column → Value) :
    (ModelFactory.setProperty typeName r (t.filled value)
      ⟨c.property, Reading.choose p.2 p.1.ty c.ty c.converter,
        fun a v => .ok (Slots.store c.property v a)⟩).toOption =
      (c.readAs r p).toOption.map fun v =>
        t.filled fun other =>
          if other.property = c.property then v.getD (value other) else value other := by
  change (ModelFactory.naming typeName c.property (c.readAs r p) >>= _).toOption = _
  cases hread : c.readAs r p with
  | error f => rfl
  | ok v =>
    cases v with
    | none =>
      refine congrArg some (List.map_congr_left fun other _ => ?_)
      simp only [Option.getD_none, ite_self]
    | some v =>
      refine congrArg some ?_
      exact store_filled c v value

end Table

namespace Column

/-- The value of a property behind one more field: what is read from a field of the column replaces
the value, and null in the row leaves it. -/
def after? (c : Column) (r : Row) (v : Value) (p : Field × Nat) : Option Value :=
  if c.answersTo p.1.name then (c.readAs r p).toOption.map (·.getD v) else some v

/-- Field by field, the last value that was read stays. -/
theorem foldlM_after? (c : Column) (r : Row) (fields : List (Field × Nat)) (v : Value) :
    fields.foldlM (c.after? r) v =
      ((fields.filter fun p => c.answersTo p.1.name).mapM fun p => (c.readAs r p).toOption).map
        fun values => (values.filterMap id).getLastD v := by
  induction fields generalizing v with
  | nil => rfl
  | cons p rest ih =>
    rw [List.foldlM_cons, after?]
    by_cases hname : c.answersTo p.1.name = true
    · rw [if_pos hname, List.filter_cons_of_pos (by exact hname), List.mapM_cons]
      cases (c.readAs r p).toOption with
      | none => rfl
      | some v' =>
        simp only [Option.map_some, Option.bind_eq_bind, Option.bind_some, ih]
        cases (rest.filter fun p => c.answersTo p.1.name).mapM fun p => (c.readAs r p).toOption with
        | none => rfl
        | some values =>
          cases v' with
          | none => rfl
          | some v' => simp
    · rw [if_neg hname, List.filter_cons_of_neg (by exact hname)]
      exact ih v

end Column

namespace Table

variable {t : Table} {r : Row}

/-- Walking the fields gives each column the value that it has behind its own fields. -/
theorem foldlM_populated (h : t.Apart) (typeName : String) (fields : List (Field × Nat))
    (value : Column → Value) :
    ((fields.filterMap fun p => ModelFactory.fieldStep? (t.populated typeName) p.2 p.1).foldlM
        (ModelFactory.setProperty typeName r) (t.filled value)).toOption =
      t.columns.mapM fun c =>
        (fields.foldlM (c.after? r) (value c)).map fun v => (c.property, v) := by
  -- A step takes an instance with a value for each column to another one, so the values vary.
  induction fields generalizing value with
  | nil =>
    refine (mapM_eq_some_iff.2 ?_).symm
    rw [filled, List.map_map]
    rfl
  | cons p rest ih =>
    have hstep := fieldStep?_populated h typeName p
    cases hfound : t.columns.find? (·.answersTo p.1.name) with
    | none =>
      rw [hfound] at hstep
      rw [List.filterMap_cons_none (by exact hstep), ih]
      refine mapM_congr fun c hc => ?_
      rw [List.foldlM_cons, Column.after?, if_neg (List.find?_eq_none.1 hfound c hc)]
      rfl
    | some c =>
      have hc := List.mem_of_find?_eq_some hfound
      have hname := List.find?_some (p := fun o : Column => o.answersTo p.1.name) hfound
      rw [hfound, Option.map_some] at hstep
      rw [List.filterMap_cons_some (by exact hstep), List.foldlM_cons, toOption_bind,
        toOption_setProperty typeName p c]
      cases hread : (c.readAs r p).toOption with
      | none =>
        -- one field that cannot be read is enough for both sides
        refine (mapM_eq_none_iff.2 ⟨c, hc, ?_⟩).symm
        rw [List.foldlM_cons, Column.after?, if_pos hname, hread]
        rfl
      | some v =>
        rw [Option.map_some, Option.bind_some, ih]
        refine mapM_congr fun other hother => ?_
        rw [List.foldlM_cons, Column.after?]
        by_cases hsame : other.property = c.property
        · obtain rfl : other = c := h.eq_of_property hother hc hsame
          rw [if_pos rfl, if_pos hname, hread]
          rfl
        · have hother' : ¬ other.answersTo p.1.name = true := fun hname' =>
            hsame (congrArg Column.property (h.eq_of_answersTo hother hc hname' hname))
          rw [if_neg hsame, if_neg hother']
          rfl

/-- Where all properties are set, each has the value that is assigned to it. -/
theorem made_populated (h : t.Apart) (typeName : String) :
    (t.populated typeName).made? r =
      t.columns.mapM fun c => (c.assigned? r).map fun v => (c.property, v) := by
  have hplan : ModelFactory.plan? (t.populated typeName) r.fields =
      .ok (.populate (t.filled fun c => c.ty.default)
        (ModelFactory.fieldSteps (t.populated typeName) r.fields ++ [])) := rfl
  rw [Model.made?_eq_run hplan rfl, ModelFactory.run, List.append_nil, ModelFactory.fieldSteps]
  refine (foldlM_populated h typeName _ _).trans (mapM_congr fun c _ => ?_)
  rw [Column.foldlM_after?]
  rfl

end Table

/-! ## Parameters -/

/-- The first field with a name, and its ordinal, behind a number of other fields. -/
theorem find?_zipIdx (fields : List Field) (name : String) (n : Nat) :
    (fields.zipIdx n).find? (fun p => Text.sameName p.1.name name) =
      (Field.ordinal? fields name).bind fun i => fields[i]?.map fun field => (field, n + i) := by
  induction fields generalizing n with
  | nil => rfl
  | cons field rest ih =>
    rw [List.zipIdx_cons, Field.ordinal?, List.findIdx?_cons]
    by_cases hname : Text.sameName field.name name = true
    · rw [List.find?_cons_of_pos (by exact hname), if_pos hname]
      rfl
    · rw [List.find?_cons_of_neg (by exact hname), if_neg hname, ih, Field.ordinal?]
      cases rest.findIdx? fun f => Text.sameName f.name name with
      | none => rfl
      | some i => simp [Nat.add_comm, Nat.add_left_comm]

namespace Column

/-- The field that a parameter takes is the first one with the name of the column, else the first
one with the name of the property. -/
theorem chosen?_eq (c : Column) (fields : List Field) :
    c.chosen? fields =
      ((Field.ordinal? fields c.name).or (Field.ordinal? fields c.property)).bind fun i =>
        fields[i]?.map fun field => (field, i) := by
  have hanswers (p : Field × Nat) : c.answersTo p.1.name =
      (Text.sameName p.1.name c.name || Text.sameName p.1.name c.property) := by
    rw [Bool.eq_iff_iff, answersTo_iff, Bool.or_eq_true, Text.sameName_iff, Text.sameName_iff,
      eq_comm, @eq_comm _ (Text.foldAscii c.property)]
  have hnamed : (c.fed fields).find? (fun p => Text.sameName p.1.name c.name) =
      fields.zipIdx.find? fun p => Text.sameName p.1.name c.name := by
    rw [fed, List.find?_filter]
    congr 1
    funext p
    rw [hanswers]
    cases Text.sameName p.1.name c.name <;> simp
  rw [chosen?, hnamed, fed, List.head?_filter]
  simp only [hanswers]
  rw [find?_or_find?_or, find?_zipIdx, find?_zipIdx]
  simp only [Nat.zero_add]
  cases hplace : Field.ordinal? fields c.name with
  | none => rfl
  | some i =>
    have hlt : i < fields.length := (List.findIdx?_eq_some_iff_getElem.1 hplace).1
    simp only [Option.bind_some, Option.some_or, List.getElem?_eq_getElem hlt, Option.map_some]

end Column

namespace Table

variable {t : Table} {r : Row}

/-- A parameter is read from the field that it takes. -/
theorem argumentReading_constructed (h : t.Apart) (typeName : String) {c : Column}
    (hc : c ∈ t.columns) (fields : List Field) :
    ModelFactory.argumentReading (t.constructed typeName) fields c.property c.ty =
      match c.chosen? fields with
      | some p => Reading.choose p.2 p.1.ty c.ty c.converter
      | none => .missing := by
  have hcolumn : (t.constructed typeName).table.ofMember? c.property = some c :=
    (ofMember?_eq h c.property).trans (h.find?_answersTo hc c.answersTo_property)
  have hinjected : (t.constructed typeName).injected? c.property = none := rfl
  rw [ModelFactory.argumentReading, hinjected, hcolumn, Column.chosen?_eq]
  simp only [Option.bind_some]
  cases (Field.ordinal? fields c.name).or (Field.ordinal? fields c.property) with
  | none => rfl
  | some i => cases hfield : fields[i]? <;> simp [hfield]

/-- The value of the parameter of a column. -/
theorem toOption_argument (h : t.Apart) (typeName : String) {c : Column} (hc : c ∈ t.columns) :
    (ModelFactory.argument typeName r (ModelFactory.argumentStep (t.constructed typeName) r.fields
      (c.property, c.ty))).toOption = c.taken? r := by
  rw [ModelFactory.argument, ModelFactory.argumentStep, toOption_bind]
  simp only [argumentReading_constructed h typeName hc, Column.taken?]
  cases c.chosen? r.fields with
  | none => rfl
  | some p =>
    simp only [Column.readAs]
    cases (Reading.choose p.2 p.1.ty c.ty c.converter).read r <;> rfl

/-- Where a constructor is called, each property has the value that its parameter takes. -/
theorem made_constructed (h : t.Apart) (typeName : String) :
    (t.constructed typeName).made? r =
      t.columns.mapM fun c => (c.taken? r).map fun v => (c.property, v) := by
  have hplan : ModelFactory.plan? (t.constructed typeName) r.fields =
      .ok (.construct (fun values => .ok ((t.columns.map Column.property).zip values))
        ((t.columns.map fun c => (c.property, c.ty)).map
          (ModelFactory.argumentStep (t.constructed typeName) r.fields))) := rfl
  have hvalues : (((t.columns.map fun c => (c.property, c.ty)).map
      (ModelFactory.argumentStep (t.constructed typeName) r.fields)).mapM
        (ModelFactory.argument typeName r)).toOption = t.columns.mapM fun c => c.taken? r := by
    rw [toOption_mapM, List.mapM_map, List.mapM_map]
    exact mapM_congr fun c hc => toOption_argument h typeName hc
  rw [Model.made?_eq_run hplan rfl, ModelFactory.run, toOption_bind]
  change Option.bind (Except.toOption (List.mapM (ModelFactory.argument typeName r) _)) _ = _
  rw [hvalues, ← map_zip_mapM]
  cases t.columns.mapM fun c => c.taken? r <;> rfl

end Table

/-! ## Both ways -/

namespace Column

variable {c : Column} {r : Row}

/-- A parameter takes a field of its column. -/
theorem mem_fed_of_chosen? {fields : List Field} {p : Field × Nat} (h : c.chosen? fields = some p) :
    p ∈ c.fed fields := by
  rw [chosen?] at h
  cases hnamed : (c.fed fields).find? (fun p => Text.sameName p.1.name c.name) with
  | none =>
    rw [hnamed, Option.none_or] at h
    exact List.mem_of_head? h
  | some p' =>
    rw [hnamed, Option.some_or, Option.some.injEq] at h
    rw [← h]
    exact List.mem_of_find?_eq_some hnamed

/-- If a parameter cannot be read, the property cannot be set, either. -/
theorem assigned?_eq_none (h : c.taken? r = none) : c.assigned? r = none := by
  rw [taken?] at h
  cases hchosen : c.chosen? r.fields with
  | none =>
    rw [hchosen] at h
    cases h
  | some p =>
    rw [hchosen] at h
    have hread : (c.readAs r p).toOption = none := Option.map_eq_none_iff.1 h
    rw [assigned?, mapM_eq_none_iff.2 ⟨p, mem_fed_of_chosen? hchosen, hread⟩]
    rfl

/-- From at most one field a property gets what a parameter takes. -/
theorem assigned?_eq_taken? (h : (c.fed r.fields).length ≤ 1) : c.assigned? r = c.taken? r := by
  rw [assigned?, taken?, chosen?]
  rcases hfed : c.fed r.fields with _ | ⟨p, rest⟩
  · rfl
  · have hrest : rest = [] := by
      rw [hfed, List.length_cons] at h
      exact List.length_eq_zero_iff.1 (by omega)
    have hchosen : ([p].find? fun p => Text.sameName p.1.name c.name).or [p].head? = some p := by
      rw [List.find?_singleton]
      split <;> rfl
    rw [hrest, hchosen]
    simp only [List.mapM_cons, List.mapM_nil]
    cases (c.readAs r p).toOption with
    | none => rfl
    | some v => cases v <;> rfl

end Column

namespace Table

variable {t : Table} {r : Row}

/-- Both ways make the same of a row, or nothing, exactly if a parameter cannot be read or the value
that each property is assigned is the one that its parameter takes; and they do so wherever no
column has more than one field. -/
theorem made_populated_eq_iff (h : t.Apart) (r : Row) (typeName other : String) :
    ((t.populated typeName).made? r = (t.constructed other).made? r ↔
      (∃ c ∈ t.columns, c.taken? r = none) ∨ ∀ c ∈ t.columns, c.assigned? r = c.taken? r) ∧
    ((∀ c ∈ t.columns, (c.fed r.fields).length ≤ 1) →
      (t.populated typeName).made? r = (t.constructed other).made? r) := by
  have hinjective (c : Column) : Function.Injective (Option.map fun v : Value => (c.property, v)) :=
    Option.map_injective fun v v' heq => (Prod.mk.inj heq).2
  have hiff : (t.populated typeName).made? r = (t.constructed other).made? r ↔
      (∃ c ∈ t.columns, c.taken? r = none) ∨
        ∀ c ∈ t.columns, c.assigned? r = c.taken? r := by
    rw [made_populated h, made_constructed h, mapM_eq_mapM_iff]
    · simp only [Option.map_eq_none_iff, (hinjective _).eq_iff]
    · intro c _ hnone
      exact Option.map_eq_none_iff.2 (Column.assigned?_eq_none (Option.map_eq_none_iff.1 hnone))
  refine ⟨hiff, fun hsingle => hiff.2 (.inr fun c hc => ?_)⟩
  exact Column.assigned?_eq_taken? (hsingle c hc)

/-- Null is stored as the empty text. -/
def nullAsEmpty : Converter where
  read
    | .text "" => .ok .null
    | v => .ok v
  write
    | .null => .ok (.text "")
    | v => .ok v

/-- Accounts, whose properties are called differently from two of their columns. -/
def accounts : Table where
  name := "Accounts"
  columns := [
    ⟨"person_id", "Id", .int32, some 0, none, .application⟩,
    ⟨"owner_name", "Owner", .text, none, some nullAsEmpty, .application⟩,
    ⟨"Age", "Age", .int16, none, none, .application⟩]

/-- A row with the name of a property, the name of a column, and no age. -/
def aliased : Row where
  fields := [⟨"OWNER", "nvarchar", .text⟩, ⟨"Person_Id", "int", .int32⟩]
  value
    | 0 => .ok (.text "")
    | _ => .ok (.int32 42)

/-- Both ways find each field of the row, and set the null that the converter makes of a text. -/
theorem made_aliased :
    accounts.Apart ∧ (∀ c ∈ accounts.columns, (c.fed aliased.fields).length ≤ 1) ∧
      (accounts.populated "Person").made? aliased = (accounts.constructed "Account").made? aliased ∧
      (accounts.populated "Person").made? aliased =
        some [("Id", .int32 42), ("Owner", .null), ("Age", .int16 0)] := by
  have hapart : accounts.Apart := by decide +kernel
  have hsingle : ∀ c ∈ accounts.columns, (c.fed aliased.fields).length ≤ 1 := by decide +kernel
  refine ⟨hapart, hsingle, ?_, by decide +kernel⟩
  exact (made_populated_eq_iff hapart aliased "Person" "Account").2 hsingle

/-- A row with two fields for one column. -/
def repeated : Row where
  fields := [⟨"Id", "int", .int32⟩, ⟨"Id", "int", .int32⟩]
  value i := .ok (.int32 (Int32.ofNat (i + 1)))

/-- People with a number. -/
def people : Table := ⟨"People", [⟨"Id", "Id", .int32, some 0, none, .application⟩]⟩

/-- A property that is set keeps the last of two fields, and a parameter takes the first one. -/
theorem made_repeated :
    people.Apart ∧
      (people.populated "Person").made? repeated = some [("Id", .int32 2)] ∧
      (people.constructed "Person").made? repeated = some [("Id", .int32 1)] ∧
      (people.populated "Person").made? repeated ≠
        (people.constructed "Person").made? repeated := by
  have hset : (people.populated "Person").made? repeated = some [("Id", .int32 2)] := by
    decide +kernel
  have hbuilt : (people.constructed "Person").made? repeated = some [("Id", .int32 1)] := by
    decide +kernel
  refine ⟨by decide +kernel, hset, hbuilt, ?_⟩
  rw [hset, hbuilt]
  decide

end Table

end RowQuery
