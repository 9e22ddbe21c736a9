import Mathlib.Data.List.Nodup
import RowQuery.Model.Record
import RowQuery.Proofs.Model.Population
import RowQuery.Proofs.Model.SeenFields

/-!
# Injected properties

A property or a parameter may get a value that the model supplies and that does not come from the
row.  When a factory is compiled, the fields that could give it a value are passed over, so nothing
that they hold has any effect: neither null, nor a value that cannot be read, nor one of several
fields.

Main results:

- Definition {lit}`Plan.ordinals`: the fields that a compiled factory reads.
- Theorem {lit}`ModelFactory.feeds_of_mem_ordinals`: each of them has a name that belongs to a
  property or a parameter that is not injected.
- Theorem {lit}`ModelFactory.kept_run`: what each step keeps is kept when an instance is populated.
- Theorem {lit}`suppliesInjected`: rows that differ in other fields make the same instance, and an
  instance has the supplied values.
-/

namespace RowQuery

open Outcome

/-! ## Names -/

namespace Model

variable {α β : Type} {entries : List (String × β)} {a b : String}

/-- A name is looked up without regard to ASCII case. -/
theorem find?_of_sameName (h : Text.sameName a b = true) : find? entries a = find? entries b := by
  have hname : ∀ entry : String × β, Text.sameName entry.1 a = Text.sameName entry.1 b := by
    intro entry
    rw [Bool.eq_iff_iff, Text.sameName_iff, Text.sameName_iff, Text.sameName_iff.1 h]
  simp only [find?, hname]

/-- What is found stands under a name that differs at most in ASCII case. -/
theorem exists_of_find? {v : β} (h : find? entries a = some v) :
    ∃ name, (name, v) ∈ entries ∧ Text.sameName name a = true := by
  obtain ⟨⟨name, w⟩, hentry, rfl⟩ := Option.map_eq_some_iff.1 h
  exact ⟨name, List.mem_of_find?_eq_some hentry, by simpa using List.find?_some hentry⟩

/-- Of names that are distinct without regard to ASCII case each finds its own entry. -/
theorem find?_of_mem {v : β} (h : (entries.map fun entry => Text.foldAscii entry.1).Nodup)
    (hmem : (a, v) ∈ entries) : find? entries a = some v := by
  have hunique : ∀ entry ∈ entries, Text.sameName entry.1 a = true → entry = (a, v) :=
    fun entry hentry hname => List.inj_on_of_nodup_map h hentry hmem (Text.sameName_iff.1 hname)
  rw [find?, find?_eq_some_of_unique hmem (Text.sameName_refl a) hunique]
  rfl

variable (m : Model α)

/-- What a model gives values to: the properties that can be set on a fresh instance, or the
parameters of its constructors. -/
def places : List String :=
  match m.fresh with
  | some _ => m.setters.map Prod.fst
  | none => m.constructors.flatMap fun c => c.parameters.map Prod.fst

/-- A field of this name may matter: a property or a parameter that is not injected has the name,
or is held by a column that has it. -/
def feeds (name : String) : Bool :=
  m.places.any fun place => (m.injected? place).isNone &&
    (Text.sameName place name ||
      m.table.columns.any fun c => Text.sameName c.property place && Text.sameName c.name name)

variable {m}

/-- A name of a place that is not injected. -/
theorem feeds_of_place {place name : String} (hplace : place ∈ m.places)
    (hinjected : m.injected? place = none) (hname : Text.sameName place name = true) :
    m.feeds name = true := by
  rw [feeds, List.any_eq_true]
  exact ⟨place, hplace, by simp [hinjected, hname]⟩

/-- A name of a column that holds a place that is not injected. -/
theorem feeds_of_column {place name : String} {c : Column} (hplace : place ∈ m.places)
    (hinjected : m.injected? place = none) (hc : c ∈ m.table.columns)
    (hproperty : Text.sameName c.property place = true) (hname : Text.sameName c.name name = true) :
    m.feeds name = true := by
  rw [feeds, List.any_eq_true]
  refine ⟨place, hplace, ?_⟩
  simp only [hinjected, Option.isNone_none, Bool.true_and, Bool.or_eq_true, List.any_eq_true,
    Bool.and_eq_true]
  exact .inr ⟨c, hc, hproperty, hname⟩

end Model

/-! ## Fields that are read -/

namespace Reading

/-- The field that is read, if any. -/
def ordinal? : Reading → Option Nat
  | direct ordinal _ => some ordinal
  | converted ordinal _ => some ordinal
  | injected _ => none
  | missing => none

/-- However a field is read, it is that field. -/
theorem ordinal?_choose (ordinal : Nat) (source place : Ty) (converter : Option Converter) :
    (choose ordinal source place converter).ordinal? = some ordinal := by
  unfold choose
  split
  · rfl
  · rfl
  · split
    · rfl
    · split <;> rfl

/-- Rows with the same value in that field are read alike. -/
theorem read_congr {reading : Reading} {r r' : Row}
    (h : ∀ ordinal ∈ reading.ordinal?, r.value ordinal = r'.value ordinal) :
    reading.read r = reading.read r' := by
  cases reading with
  | direct ordinal ty => simp only [read, Row.isNull, Row.take, h ordinal rfl]
  | converted ordinal converter => simp only [read, h ordinal rfl]
  | injected v => rfl
  | missing => rfl

end Reading

/-- The fields that a plan reads. -/
def Plan.ordinals {α : Type} : Plan α → List Nat
  | populate _ steps => steps.filterMap fun step => step.reading.ordinal?
  | construct _ steps => steps.filterMap fun step => step.reading.ordinal?

namespace ModelFactory

variable {α : Type} {m : Model α} {fields : List Field}

/-- Rows with the same values in the fields that a plan reads make the same instance. -/
theorem run_congr {plan : Plan α} {r r' : Row} (typeName : String)
    (h : ∀ ordinal ∈ plan.ordinals, r.value ordinal = r'.value ordinal) :
    run typeName r plan = run typeName r' plan := by
  cases plan with
  | populate fresh steps =>
    rw [run, run]
    refine foldlM_congr (fun step hstep a => ?_) fresh
    have hread : step.reading.read r = step.reading.read r' :=
      Reading.read_congr fun ordinal ho => h ordinal (List.mem_filterMap.2 ⟨step, hstep, ho⟩)
    rw [setProperty, setProperty, hread]
  | construct build steps =>
    have harguments : steps.mapM (argument typeName r) = steps.mapM (argument typeName r') := by
      refine mapM_congr fun step hstep => ?_
      have hread : step.reading.read r = step.reading.read r' :=
        Reading.read_congr fun ordinal ho => h ordinal (List.mem_filterMap.2 ⟨step, hstep, ho⟩)
      rw [argument, argument, hread]
    rw [run, run, harguments]

/-- The step of a field sets the property of its column, which is not injected. -/
theorem fieldStep?_eq_some {ordinal : Nat} {field : Field} {step : PropertyStep α}
    (h : fieldStep? m ordinal field = some step) :
    ∃ column, m.table.ofField? field.name = some column ∧ m.injected? column.property = none ∧
      m.setter? column.property = some step.set ∧ step.reading.ordinal? = some ordinal := by
  rw [fieldStep?, Option.bind_eq_bind, Option.bind_eq_some_iff] at h
  obtain ⟨column, hcolumn, h⟩ := h
  split at h
  · cases h
  · rename_i hinjected
    obtain ⟨set, hset, hstep⟩ := Option.bind_eq_some_iff.1 h
    cases hstep
    exact ⟨column, hcolumn, by simpa using hinjected, hset, Reading.ordinal?_choose ..⟩

/-- The step of an injected property hands the supplied value to its setter. -/
theorem injectedStep_eq_ok {property : String} {v : Value} {step : PropertyStep α}
    (h : injectedStep m property v = .ok step) :
    ∃ set, m.setter? property = some set ∧ step = ⟨property, .injected v, set⟩ := by
  rw [injectedStep] at h
  split at h
  · rename_i set hset
    cases h
    exact ⟨set, hset, rfl⟩
  · cases h

/-- The field of a property that is set has a name that may matter. -/
theorem feeds_of_fieldStep? {fresh : α} (hfresh : m.fresh = some fresh) {ordinal : Nat}
    {field : Field} {step : PropertyStep α} (h : fieldStep? m ordinal field = some step) :
    m.feeds field.name = true := by
  obtain ⟨column, hcolumn, hinjected, hset, -⟩ := fieldStep?_eq_some h
  obtain ⟨place, hmem, hplace⟩ := Model.exists_of_find? hset
  have hplaces : place ∈ m.places := by
    rw [Model.places, hfresh]
    exact List.mem_map.2 ⟨(place, step.set), hmem, rfl⟩
  have hnone : m.injected? place = none := by
    rw [← hinjected]
    exact Model.find?_of_sameName hplace
  -- the column was found by its own name or by the one of its property
  rcases Option.or_eq_some_iff.1 hcolumn with hname | ⟨-, hproperty⟩
  · have hc := List.mem_of_find?_eq_some hname
    exact Model.feeds_of_column hplaces hnone hc (Text.sameName_symm hplace)
      (by simpa using List.find?_some hname)
  · have hproperty' : Text.sameName column.property field.name = true := by
      simpa using List.find?_some hproperty
    exact Model.feeds_of_place hplaces hnone (Text.sameName_trans hplace hproperty')

/-- A field that is found by a name has it. -/
theorem exists_of_ordinal? {name : String} {ordinal : Nat}
    (h : Field.ordinal? fields name = some ordinal) :
    ∃ field, fields[ordinal]? = some field ∧ Text.sameName field.name name = true := by
  obtain ⟨hlt, hname, -⟩ := List.findIdx?_eq_some_iff_getElem.1 h
  exact ⟨fields[ordinal], List.getElem?_eq_getElem hlt, hname⟩

/-- The field of a parameter has a name that may matter. -/
theorem feeds_of_argumentReading {name : String} (hname : name ∈ m.places) {ty : Ty} {ordinal : Nat}
    (h : (argumentReading m fields name ty).ordinal? = some ordinal) :
    ∃ field, fields[ordinal]? = some field ∧ m.feeds field.name = true := by
  rw [argumentReading] at h
  cases hinjected : m.injected? name with
  | some v =>
    rw [hinjected] at h
    cases h
  | none =>
    simp only [hinjected] at h
    split at h
    · rename_i i field hfound
      obtain ⟨j, hordinal, hfield⟩ := Option.bind_eq_some_iff.1 hfound
      obtain ⟨field', hfield, hsame⟩ := Option.map_eq_some_iff.1 hfield
      cases hsame
      rw [Reading.ordinal?_choose] at h
      cases h
      refine ⟨field, hfield, ?_⟩
      rcases Option.or_eq_some_iff.1 hordinal with hcolumn | ⟨-, hparameter⟩
      · obtain ⟨c, hc, hplace⟩ := Option.bind_eq_some_iff.1 hcolumn
        obtain ⟨field', hfield', hcname⟩ := exists_of_ordinal? hplace
        obtain rfl : field' = field := Option.some.inj (hfield'.symm.trans hfield)
        rcases Option.or_eq_some_iff.1 hc with hproperty | ⟨-, hown⟩
        · exact Model.feeds_of_column hname hinjected (List.mem_of_find?_eq_some hproperty)
            (by simpa using List.find?_some hproperty) (Text.sameName_symm hcname)
        · have hcolumnName : Text.sameName c.name name = true := by
            simpa using List.find?_some hown
          exact Model.feeds_of_place hname hinjected
            (Text.sameName_symm (Text.sameName_trans hcname hcolumnName))
      · obtain ⟨field', hfield', hpname⟩ := exists_of_ordinal? hparameter
        obtain rfl : field' = field := Option.some.inj (hfield'.symm.trans hfield)
        exact Model.feeds_of_place hname hinjected (Text.sameName_symm hpname)
    · cases h

/-- The ways to make instances: a fresh one is populated from the fields and then with the injected
values, or the only constructor is called. -/
theorem plan?_eq_ok {plan : Plan α} (h : plan? m fields = .ok plan) :
    (∃ fresh steps, m.fresh = some fresh ∧
      (m.injected.mapM fun entry => injectedStep m entry.1 entry.2) = .ok steps ∧
      plan = .populate fresh (fieldSteps m fields ++ steps)) ∨
    ∃ constructor, m.fresh = none ∧ m.constructors = [constructor] ∧
      plan = .construct constructor.build (constructor.parameters.map (argumentStep m fields)) := by
  rw [plan?] at h
  split at h
  · rename_i fresh hfresh
    obtain ⟨steps, hsteps, hplan⟩ := bind_eq_ok.1 h
    cases hplan
    exact .inl ⟨fresh, steps, hfresh, hsteps, rfl⟩
  · rename_i constructor hfresh hconstructors
    cases h
    exact .inr ⟨constructor, hfresh, hconstructors, rfl⟩
  · cases h

/-- Each field that a plan reads has a name that may matter. -/
theorem feeds_of_mem_ordinals {plan : Plan α} (h : plan? m fields = .ok plan) {ordinal : Nat}
    (ho : ordinal ∈ plan.ordinals) :
    ∃ field, fields[ordinal]? = some field ∧ m.feeds field.name = true := by
  rcases plan?_eq_ok h with ⟨fresh, steps, hfresh, hsteps, rfl⟩ | ⟨constructor, hfresh, hone, rfl⟩
  · obtain ⟨step, hstep, hread⟩ := List.mem_filterMap.1 ho
    rcases List.mem_append.1 hstep with hfield | hinjected
    · obtain ⟨⟨field, i⟩, hmem, hfieldStep⟩ := List.mem_filterMap.1 hfield
      obtain ⟨-, -, -, -, hi⟩ := fieldStep?_eq_some hfieldStep
      obtain rfl : i = ordinal := Option.some.inj (hi.symm.trans hread)
      exact ⟨field, List.mk_mem_zipIdx_iff_getElem?.1 hmem, feeds_of_fieldStep? hfresh hfieldStep⟩
    · obtain ⟨entry, -, hentry⟩ := exists_of_mem_mapM hsteps hinjected
      obtain ⟨set, -, rfl⟩ := injectedStep_eq_ok hentry
      cases hread
  · obtain ⟨step, hstep, hread⟩ := List.mem_filterMap.1 ho
    obtain ⟨parameter, hparameter, rfl⟩ := List.mem_map.1 hstep
    have hplace : parameter.1 ∈ m.places := by
      rw [Model.places, hfresh, hone]
      simpa using ⟨parameter.2, hparameter⟩
    exact feeds_of_argumentReading hplace hread

end ModelFactory

/-! ## Instances -/

/-- Two rows with the same names and types of fields that hold the same in each field whose name
matters. -/
structure Row.AgreeOn (matters : String → Bool) (r r' : Row) : Prop where
  fields : r.fields.map (fun field => (field.name, field.ty)) =
    r'.fields.map fun field => (field.name, field.ty)
  values : ∀ (ordinal : Nat) (field : Field), r.fields[ordinal]? = some field →
    matters field.name = true → r.value ordinal = r'.value ordinal

/-- Rows that agree look the same to a factory. -/
theorem Row.AgreeOn.seen_eq {matters : String → Bool} {r r' : Row} (h : r.AgreeOn matters r') :
    r.fields.map Field.seen = r'.fields.map Field.seen := by
  have hseen : Field.seen =
      (fun p : String × Ty => (p.1, p.2.direct?)) ∘
        fun field : Field => (field.name, field.ty) := rfl
  rw [hseen, ← List.map_map, ← List.map_map, h.fields]

namespace Model

variable {α : Type} {m : Model α} {r : Row}

/-- The instance that a model makes of a row, or the fault. -/
def made (m : Model α) (r : Row) : Except Fault α := do
  (← ModelFactory.compile m r.fields).build r

/-- Without a last step a factory makes what its plan makes. -/
theorem build_eq_run {f : ModelFactory α} (h : f.finish = none) (r : Row) :
    f.build r = ModelFactory.run f.typeName r f.plan := by
  rw [ModelFactory.build, h]
  exact bind_pure _

/-- A factory of a model has a plan of the model, and its last step. -/
theorem compile_eq_ok {fields : List Field} {f : ModelFactory α}
    (h : ModelFactory.compile m fields = .ok f) :
    ∃ plan, ModelFactory.plan? m fields = .ok plan ∧ f = ⟨m.typeName, plan, m.finish⟩ := by
  obtain ⟨plan, hplan, hf⟩ := bind_eq_ok.1 h
  cases hf
  exact ⟨plan, hplan, rfl⟩

/-- Without a last step an instance is what a plan of the model makes of the row. -/
theorem exists_run_of_made (hfinish : m.finish = none) {a : α} (h : m.made r = .ok a) :
    ∃ plan, ModelFactory.plan? m r.fields = .ok plan ∧
      ModelFactory.run m.typeName r plan = .ok a := by
  obtain ⟨f, hcompile, hbuild⟩ := bind_eq_ok.1 h
  obtain ⟨plan, hplan, rfl⟩ := compile_eq_ok hcompile
  rw [build_eq_run hfinish] at hbuild
  exact ⟨plan, hplan, hbuild⟩

/-- A factory makes the same of two rows that agree on the fields that may matter. -/
theorem build_eq_of_agreeOn (hfinish : m.finish = none) {r' : Row} (h : r.AgreeOn m.feeds r')
    {f : ModelFactory α} (hf : ModelFactory.compile m r.fields = .ok f) :
    f.build r = f.build r' := by
  obtain ⟨plan, hplan, rfl⟩ := compile_eq_ok hf
  rw [build_eq_run hfinish, build_eq_run hfinish]
  refine ModelFactory.run_congr m.typeName fun ordinal ho => ?_
  obtain ⟨field, hfield, hfeeds⟩ := ModelFactory.feeds_of_mem_ordinals hplan ho
  exact h.values ordinal field hfield hfeeds

/-- A model makes the same of two rows that agree on the fields that may matter. -/
theorem made_eq_of_agreeOn (hfinish : m.finish = none) {r' : Row} (h : r.AgreeOn m.feeds r') :
    m.made r = m.made r' := by
  have hmade (s : Row) : m.made s =
      (ModelFactory.compile m s.fields).map ModelFactory.build >>= fun build => build s := by
    rw [made]
    cases ModelFactory.compile m s.fields <;> rfl
  rw [hmade r, hmade r', ← ModelFactory.compile_seen h.seen_eq m]
  cases hcompile : ModelFactory.compile m r.fields with
  | error f => rfl
  | ok f => exact build_eq_of_agreeOn hfinish h hcompile

end Model

/-! ## Values that stay -/

namespace ModelFactory

variable {α : Type} {m : Model α} {typeName : String} {r : Row} {a b : α}

/-- To name a property does not make a success of a fault. -/
theorem naming_eq_ok {β : Type} {property : String} {answer : Except Fault β} {b : β} :
    naming typeName property answer = .ok b ↔ answer = .ok b := by
  cases answer <;> simp [naming, Except.mapError]

/-- A step leaves an instance as it is or sets its property. -/
theorem setProperty_eq_ok {step : PropertyStep α} (h : setProperty typeName r a step = .ok b) :
    a = b ∨ ∃ v, step.set a v = .ok b := by
  obtain ⟨v, -, h⟩ := bind_eq_ok.1 h
  cases v with
  | none => exact .inl (Except.ok.inj h)
  | some v => exact .inr ⟨v, naming_eq_ok.1 h⟩

/-- What holds of an instance and is kept by each setter holds behind all steps. -/
theorem kept_run {steps : List (PropertyStep α)} {P : α → Prop}
    (h : ∀ step ∈ steps, ∀ a v b, P a → step.set a v = .ok b → P b) (ha : P a)
    (hrun : steps.foldlM (setProperty typeName r) a = .ok b) : P b := by
  induction steps generalizing a with
  | nil =>
    cases hrun
    exact ha
  | cons step rest ih =>
    rw [List.foldlM_cons, bind_eq_ok] at hrun
    obtain ⟨a₁, hstep, hrun⟩ := hrun
    have ha₁ : P a₁ := by
      rcases setProperty_eq_ok hstep with rfl | ⟨v, hset⟩
      · exact ha
      · exact h step List.mem_cons_self a v a₁ ha hset
    exact ih (fun s hs => h s (List.mem_cons_of_mem step hs)) ha₁ hrun

/-- The setter of each step is one of the model. -/
theorem exists_setter_of_mem {fields : List Field} {injected : List (String × Value)}
    {steps : List (PropertyStep α)}
    (hsteps : (injected.mapM fun entry => injectedStep m entry.1 entry.2) = .ok steps)
    {step : PropertyStep α} (hstep : step ∈ fieldSteps m fields ++ steps) :
    ∃ name, (name, step.set) ∈ m.setters := by
  have hfound : ∃ property, m.setter? property = some step.set := by
    rcases List.mem_append.1 hstep with hfield | hinjected
    · obtain ⟨⟨field, i⟩, -, hfieldStep⟩ := List.mem_filterMap.1 hfield
      obtain ⟨column, -, -, hset, -⟩ := fieldStep?_eq_some hfieldStep
      exact ⟨column.property, hset⟩
    · obtain ⟨entry, -, hentry⟩ := exists_of_mem_mapM hsteps hinjected
      obtain ⟨set, hset, rfl⟩ := injectedStep_eq_ok hentry
      exact ⟨entry.1, hset⟩
  obtain ⟨property, hset⟩ := hfound
  obtain ⟨name, hmem, -⟩ := Model.exists_of_find? hset
  exact ⟨name, hmem⟩

end ModelFactory

namespace Model

variable {α : Type} {m : Model α} {r : Row} {a : α} {property : String} {v : Value}

/-- What holds of an instance once a property is set to a value, and goes on to hold while
properties of other names are set. -/
structure Lasts (m : Model α) (property : String) (v : Value) (P : α → Prop) : Prop where
  holds : ∀ set, m.setter? property = some set → ∀ a b, set a v = .ok b → P b
  stays : ∀ name set, (name, set) ∈ m.setters → Text.sameName name property = false →
    ∀ a w b, P a → set a w = .ok b → P b

/-- No two properties are injected under names that differ at most in ASCII case. -/
def InjectsApart (m : Model α) : Prop :=
  (m.injected.map fun entry => Text.foldAscii entry.1).Nodup

instance (m : Model α) : Decidable m.InjectsApart :=
  inferInstanceAs (Decidable (List.Nodup _))

/-- What lasts once an injected property is set holds behind the steps of
all injected properties. -/
theorem Lasts.of_injected {P : α → Prop} (hP : m.Lasts property v P) (hapart : m.InjectsApart)
    (hmem : (property, v) ∈ m.injected) {steps : List (PropertyStep α)}
    (hsteps : (m.injected.mapM fun entry => ModelFactory.injectedStep m entry.1 entry.2) =
      .ok steps)
    {b : α} (hrun : steps.foldlM (ModelFactory.setProperty m.typeName r) a = .ok b) : P b := by
  obtain ⟨front, behind, hsplit⟩ := List.append_of_mem hmem
  rw [InjectsApart, hsplit, List.map_append, List.map_cons, List.nodup_append] at hapart
  rw [hsplit, List.mapM_append, bind_eq_ok] at hsteps
  obtain ⟨before, -, hsteps⟩ := hsteps
  obtain ⟨others, hothers, hsteps⟩ := bind_eq_ok.1 hsteps
  cases hsteps
  rw [List.mapM_cons, bind_eq_ok] at hothers
  obtain ⟨step, hstep, hothers⟩ := hothers
  obtain ⟨after, hafter, hothers⟩ := bind_eq_ok.1 hothers
  cases hothers
  obtain ⟨set, hset, rfl⟩ := ModelFactory.injectedStep_eq_ok hstep
  rw [List.foldlM_append, bind_eq_ok] at hrun
  obtain ⟨a₁, -, hrun⟩ := hrun
  rw [List.foldlM_cons, bind_eq_ok] at hrun
  obtain ⟨a₂, hinject, hrun⟩ := hrun
  have ha₂ : P a₂ := hP.holds set hset a₁ a₂ (ModelFactory.naming_eq_ok.1 hinject)
  -- the properties that are injected behind this one have other names
  refine ModelFactory.kept_run (fun other hother => ?_) ha₂ hrun
  obtain ⟨entry, hentry, hotherStep⟩ := exists_of_mem_mapM hafter hother
  obtain ⟨set', hset', rfl⟩ := ModelFactory.injectedStep_eq_ok hotherStep
  obtain ⟨name, hname, hsame⟩ := exists_of_find? hset'
  have hdiffers : Text.foldAscii property ≠ Text.foldAscii entry.1 := by
    intro heq
    have hnotMem := (List.nodup_cons.1 hapart.2.1).1
    exact hnotMem (List.mem_map.2 ⟨entry, hentry, heq.symm⟩)
  have hother : Text.sameName name property = false := by
    rw [Bool.eq_false_iff, Ne, Text.sameName_iff, Text.sameName_iff.1 hsame]
    exact Ne.symm hdiffers
  exact hP.stays name set' hname hother

/-- An instance that is populated has each injected value, in whatever way its properties hold what
they are set to. -/
theorem lasts_of_made (hfinish : m.finish = none) (hapart : m.InjectsApart) {fresh : α}
    (hfresh : m.fresh = some fresh) (hmade : m.made r = .ok a) (hmem : (property, v) ∈ m.injected)
    {P : α → Prop} (hP : m.Lasts property v P) : P a := by
  obtain ⟨plan, hplan, hrun⟩ := exists_run_of_made hfinish hmade
  rcases ModelFactory.plan?_eq_ok hplan with ⟨fresh', steps, -, hsteps, rfl⟩ | ⟨_, hnone, -, -⟩
  · rw [ModelFactory.run, List.foldlM_append, bind_eq_ok] at hrun
    obtain ⟨a₁, -, hrun⟩ := hrun
    exact hP.of_injected hapart hmem hsteps hrun
  · rw [hfresh] at hnone
    cases hnone

/-- Every injected property of an instance that is populated has a setter. -/
theorem exists_setter?_of_made (hfinish : m.finish = none) (hapart : m.InjectsApart) {fresh : α}
    (hfresh : m.fresh = some fresh) (hmade : m.made r = .ok a)
    (hmem : (property, v) ∈ m.injected) : ∃ set, m.setter? property = some set :=
  lasts_of_made (P := fun _ => ∃ set, m.setter? property = some set) hfinish hapart hfresh hmade
    hmem ⟨fun set hset _ _ _ => ⟨set, hset⟩, fun _ _ _ _ _ _ _ hfound _ => hfound⟩

/-- What holds of the fresh instance and is kept by all setters holds of an instance that is
populated. -/
theorem kept_of_made (hfinish : m.finish = none) {fresh : α} (hfresh : m.fresh = some fresh)
    {P : α → Prop} (hstart : P fresh)
    (hkept : ∀ name set, (name, set) ∈ m.setters → ∀ a w b, P a → set a w = .ok b → P b)
    (hmade : m.made r = .ok a) : P a := by
  obtain ⟨plan, hplan, hrun⟩ := exists_run_of_made hfinish hmade
  rcases ModelFactory.plan?_eq_ok hplan with ⟨fresh', steps, hsame, hsteps, rfl⟩ | ⟨_, hnone, -, -⟩
  · obtain rfl : fresh = fresh' := Option.some.inj (hfresh.symm.trans hsame)
    refine ModelFactory.kept_run (fun step hstep => ?_) hstart hrun
    obtain ⟨name, hname⟩ := ModelFactory.exists_setter_of_mem hsteps hstep
    exact hkept name step.set hname
  · rw [hfresh] at hnone
    cases hnone

/-- An injected parameter is handed the supplied value. -/
theorem argument_of_injected {parameter : String × Ty} (h : m.injected? parameter.1 = some v) :
    ModelFactory.argument m.typeName r (ModelFactory.argumentStep m r.fields parameter) =
      .ok v := by
  rw [ModelFactory.argument, ModelFactory.argumentStep, ModelFactory.argumentReading, h]
  rfl

/-- The only constructor makes an instance of one value for each parameter, and of the supplied one
for each that is injected. -/
theorem exists_values_of_made (hfinish : m.finish = none) (hapart : m.InjectsApart)
    (hfresh : m.fresh = none) (hmade : m.made r = .ok a) :
    ∃ constructor values, m.constructors = [constructor] ∧ constructor.build values = .ok a ∧
      values.length = constructor.parameters.length ∧
      ∀ property v, (property, v) ∈ m.injected → ∀ (i : Nat) (parameter : String × Ty),
        constructor.parameters[i]? = some parameter →
          Text.sameName parameter.1 property = true → values[i]? = some v := by
  obtain ⟨plan, hplan, hrun⟩ := exists_run_of_made hfinish hmade
  rcases ModelFactory.plan?_eq_ok hplan with ⟨_, _, hsome, -, -⟩ | ⟨constructor, -, hone, rfl⟩
  · rw [hfresh] at hsome
    cases hsome
  · rw [ModelFactory.run, bind_eq_ok] at hrun
    obtain ⟨values, hvalues, hbuild⟩ := hrun
    have hanswers := mapM_eq_ok_iff.1 hvalues
    rw [List.map_map] at hanswers
    refine ⟨constructor, values, hone, hbuild, ?_, ?_⟩
    · have hlength := congrArg List.length hanswers
      simpa using hlength.symm
    · intro property v hmem i parameter hparameter hname
      have hinjected : m.injected? parameter.1 = some v :=
        (find?_of_sameName hname).trans (find?_of_mem hapart hmem)
      have hat := congrArg (·[i]?) hanswers
      simp only [List.getElem?_map, hparameter, Option.map_some, Function.comp_apply,
        argument_of_injected hinjected] at hat
      simpa using hat.symm

end Model

/-! ## The whole -/

/-- A model whose injected properties do not depend on the row. -/
structure Model.SuppliesInjected {α : Type} (m : Model α) : Prop where
  /-- Rows that differ only in fields whose names do not belong to what is read from the row make
  the same instance or fail with the same fault. -/
  independent : ∀ r r' : Row, r.AgreeOn m.feeds r' → m.made r = m.made r'
  /-- One factory does so as well. -/
  factory : ∀ r r' : Row, r.AgreeOn m.feeds r' →
    ∀ f, ModelFactory.compile m r.fields = .ok f → f.build r = f.build r'
  /-- An instance whose properties are set has every supplied value: whatever holds once the
  property is set to it, and lasts while others are set, holds of the instance. -/
  properties : ∀ (r : Row) (a fresh : α), m.fresh = some fresh → m.made r = .ok a →
    ∀ property v, (property, v) ∈ m.injected → ∀ P, m.Lasts property v P → P a
  /-- An instance that is constructed is made of the supplied value for each injected parameter. -/
  parameters : ∀ (r : Row) (a : α), m.fresh = none → m.made r = .ok a →
    ∃ constructor values, m.constructors = [constructor] ∧ constructor.build values = .ok a ∧
      values.length = constructor.parameters.length ∧
      ∀ property v, (property, v) ∈ m.injected → ∀ (i : Nat) (parameter : String × Ty),
        constructor.parameters[i]? = some parameter →
          Text.sameName parameter.1 property = true → values[i]? = some v

/-- Without a last step, and with injected names that are distinct without regard to ASCII case,
the injected properties of a model do not depend on the row. -/
theorem Model.suppliesInjected {α : Type} (m : Model α) (hfinish : m.finish = none)
    (hapart : m.InjectsApart) : m.SuppliesInjected where
  independent _ _ h := made_eq_of_agreeOn hfinish h
  factory _ _ h _ hf := build_eq_of_agreeOn hfinish h hf
  properties _ _ _ hfresh hmade _ _ hmem _ hP :=
    lasts_of_made hfinish hapart hfresh hmade hmem hP
  parameters _ _ hfresh hmade := exists_values_of_made hfinish hapart hfresh hmade

/-- Badges of visitors, whose number is drawn and not read. -/
def badge : RecordType where
  typeName := "Badge"
  table := ⟨"Visitors", [⟨"Number", "Id", .int32, some 0, none, .application⟩,
    ⟨"Name", "Name", .text, none, none, .application⟩]⟩
  hasFresh := true
  constructors := []
  setters := [("Id", .int32), ("Name", .text)]
  injected := [("ID", .int32 7)]
  finish := none

/-- A row of a visitor with two fields for the number and some values in them. -/
def visitorRow (number other : Except Fault Value) : Row where
  fields := [⟨"Number", "int", .int32⟩, ⟨"Name", "nvarchar", .text⟩, ⟨"id", "nvarchar", .text⟩]
  value
    | 0 => number
    | 1 => .ok (.text "ada")
    | _ => other

/-- A badge has the number that was drawn, be the fields for it null,
unreadable or of another type. -/
theorem suppliesInjected_badge :
    badge.model.finish = none ∧ badge.model.InjectsApart ∧
      (visitorRow (.ok .null) (.ok (.text "none"))).AgreeOn badge.model.feeds
        (visitorRow (.error (Fault.of (.plain "lost"))) (.ok (.bool true))) ∧
      badge.model.made (visitorRow (.ok .null) (.ok (.text "none"))) =
        badge.model.made (visitorRow (.error (Fault.of (.plain "lost"))) (.ok (.bool true))) ∧
      badge.model.made (visitorRow (.ok .null) (.ok (.text "none"))) =
        .ok ⟨[("Id", .int32 7), ("Name", .text "ada")], []⟩ := by
  have hapart : badge.model.InjectsApart := by decide
  have hagree : (visitorRow (.ok .null) (.ok (.text "none"))).AgreeOn badge.model.feeds
      (visitorRow (.error (Fault.of (.plain "lost"))) (.ok (.bool true))) := by
    refine ⟨rfl, fun ordinal field hfield hmatters => ?_⟩
    match ordinal with
    | 0 | 2 =>
      cases hfield
      exact absurd hmatters (by decide)
    | 1 => rfl
    | n + 3 => cases hfield
  exact ⟨rfl, hapart, hagree, (badge.model.suppliesInjected rfl hapart).independent _ _ hagree, rfl⟩

/-! ## Records -/

namespace RecordType

variable {t : RecordType} {r : Row} {a : Record} {property : String} {v : Value}

/-- Each setter of a type of records stores into the slot of its name. -/
theorem exists_store_of_mem {name : String} {set : Setter Record}
    (h : (name, set) ∈ t.model.setters) :
    ∃ i ty, t.setters[i]? = some (name, ty) ∧ set = store i ty := by
  obtain ⟨⟨⟨name', ty⟩, i⟩, hmem, hentry⟩ := List.mem_map.1 (NamedList.mem_of_mem_ofEntries h)
  cases hentry
  exact ⟨i, ty, List.mk_mem_zipIdx_iff_getElem?.1 hmem, rfl⟩

/-- To store a value replaces the value of one slot. -/
theorem store_eq_ok {i : Nat} {ty : Ty} {b : Record} (h : store i ty a v = .ok b) :
    b.slots = a.slots.modify i fun slot => (slot.1, v) := by
  obtain ⟨w, htake, hb⟩ := bind_eq_ok.1 h
  have hw : v = w := by
    rw [Value.take] at htake
    split at htake
    · exact Except.ok.inj htake
    · cases htake
  cases hb
  rw [hw]

/-- A record keeps the names of its slots. -/
theorem map_fst_slots_of_made (hfresh : t.hasFresh = true) (hfinish : t.finish = none)
    (hmade : t.model.made r = .ok a) : a.slots.map Prod.fst = t.setters.map Prod.fst := by
  have hstart : t.model.fresh = some t.fresh := if_pos hfresh
  have hend : t.model.finish = none := congrArg (Option.map runFinish) hfinish
  refine Model.kept_of_made hend hstart
    (P := fun a => a.slots.map Prod.fst = t.setters.map Prod.fst)
    ?_ (fun name set hset b w c hb hstore => ?_) hmade
  · rw [fresh, List.map_map]
    rfl
  · obtain ⟨i, ty, -, rfl⟩ := exists_store_of_mem hset
    rw [store_eq_ok hstore, ← hb]
    apply List.ext_getElem?
    intro j
    simp only [List.getElem?_map, List.getElem?_modify]
    split <;> simp [Function.comp_def]

/-- What is stored in the slot of a property lasts. -/
theorem lasts_slot {i : Nat} {name : String} {ty : Ty} (hslot : t.setters[i]? = some (name, ty))
    (hset : t.model.setter? property = some (store i ty))
    (hname : Text.sameName name property = true) :
    t.model.Lasts property v fun a => ∀ slot ∈ a.slots[i]?, slot.2 = v where
  holds set hfound b c hstore := by
    obtain rfl : store i ty = set := Option.some.inj (hset.symm.trans hfound)
    intro slot hat
    rw [store_eq_ok hstore, List.getElem?_modify_eq] at hat
    obtain ⟨old, -, rfl⟩ := Option.map_eq_some_iff.1 hat
    rfl
  stays name' set hmem hother b w c hb hstore := by
    obtain ⟨j, ty', hslot', rfl⟩ := exists_store_of_mem hmem
    have hne : j ≠ i := by
      rintro rfl
      rw [hslot] at hslot'
      cases hslot'
      rw [hname] at hother
      cases hother
    rw [store_eq_ok hstore, List.getElem?_modify_ne _ _ hne]
    exact hb

/-- The slot of an injected property of a record holds the supplied value. -/
theorem exists_slot_of_injected (hfresh : t.hasFresh = true) (hfinish : t.finish = none)
    (hapart : t.model.InjectsApart) (hmade : t.model.made r = .ok a)
    (hmem : (property, v) ∈ t.model.injected) :
    ∃ (i : Nat) (name : String), a.slots[i]? = some (name, v) ∧
      Text.sameName name property = true := by
  have hstart : t.model.fresh = some t.fresh := if_pos hfresh
  have hend : t.model.finish = none := congrArg (Option.map runFinish) hfinish
  obtain ⟨set, hset⟩ := Model.exists_setter?_of_made hend hapart hstart hmade hmem
  obtain ⟨name, hsetter, hname⟩ := Model.exists_of_find? hset
  obtain ⟨i, ty, hslot, rfl⟩ := exists_store_of_mem hsetter
  have hvalue := Model.lasts_of_made hend hapart hstart hmade hmem (lasts_slot hslot hset hname)
  have hnames := congrArg (·[i]?) (map_fst_slots_of_made hfresh hfinish hmade)
  simp only [List.getElem?_map, hslot, Option.map_some, Option.map_eq_some_iff] at hnames
  obtain ⟨slot, hat, rfl⟩ := hnames
  refine ⟨i, slot.1, ?_, hname⟩
  rw [hat, ← hvalue slot hat]

end RecordType

end RowQuery
