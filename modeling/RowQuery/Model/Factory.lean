import RowQuery.Model.Reading
import RowQuery.Model.Schema

/-!
# Factories

A factory makes results from rows.  All that depends on the fields alone, and not on their
values, is decided when the factory is compiled; what is left is a list of steps that is run
for every row.

Main results:

- {lit}`ModelFactory.compile` picks a way to make instances of a model and
  {lit}`ModelFactory.build` makes one.
- {lit}`ScalarFactory.compile` and {lit}`ScalarFactory.build` do the same for results of one
  value.
-/

namespace RowQuery

/-! ## Steps -/

/-- A property that is set on a fresh instance. -/
structure PropertyStep (α : Type) where
  property : String
  reading : Reading
  set : Setter α

/-- A parameter of a constructor and the value that stands in for null. -/
structure ArgumentStep where
  name : String
  reading : Reading
  default : Value

/-- How an instance is made. -/
inductive Plan (α : Type) where
  /-- Properties are set on a fresh instance. -/
  | populate (fresh : α) (steps : List (PropertyStep α))
  /-- A constructor is called. -/
  | construct (build : List Value → Except Fault α) (steps : List ArgumentStep)

/-- A factory of instances. -/
structure ModelFactory (α : Type) where
  typeName : String
  plan : Plan α
  finish : Option (α → Row → Except Fault α)

namespace ModelFactory

variable {α : Type}

/-! ## Compiling -/

/-- The step of a field: the property of its column, unless the property is injected or cannot
be set. -/
def fieldStep? (m : Model α) (ordinal : Nat) (field : Field) : Option (PropertyStep α) := do
  let column ← m.table.ofField? field.name
  if (m.injected? column.property).isSome then none
  else
    let set ← m.setter? column.property
    return ⟨column.property, Reading.choose ordinal field.ty column.ty column.converter, set⟩

/-- The steps of all fields, in the order of the fields. -/
def fieldSteps (m : Model α) (fields : List Field) : List (PropertyStep α) :=
  fields.zipIdx.filterMap fun (field, ordinal) => fieldStep? m ordinal field

/-- The step of an injected property, which has to have a setter. -/
def injectedStep (m : Model α) (property : String) (v : Value) : Except Fault (PropertyStep α) :=
  match m.setter? property with
  | some set => .ok ⟨property, .injected v, set⟩
  | none => .error (Fault.of (.mapping (.setterMissing property m.typeName)))

/-- How a parameter is read: the column that holds such a property, else the one of that name,
says which field; a field may also have the name of the parameter. -/
def argumentReading (m : Model α) (fields : List Field) (name : String) (ty : Ty) : Reading :=
  match m.injected? name with
  | some v => .injected v
  | none =>
    let column := m.table.ofMember? name
    let ordinal :=
      (column.bind fun c => Field.ordinal? fields c.name).or (Field.ordinal? fields name)
    match ordinal.bind fun i => fields[i]?.map fun field => (i, field) with
    | some (i, field) => Reading.choose i field.ty ty (column.bind Column.converter)
    | none => .missing

/-- The step of a parameter. -/
def argumentStep (m : Model α) (fields : List Field) (parameter : String × Ty) : ArgumentStep :=
  ⟨parameter.1, argumentReading m fields parameter.1 parameter.2, parameter.2.default⟩

/-- The plan of a model for rows with these fields: a fresh instance if there is one, else the
only constructor. -/
def plan? (m : Model α) (fields : List Field) : Except Fault (Plan α) :=
  match m.fresh, m.constructors with
  | some fresh, _ => do
    let injected ← m.injected.mapM fun (property, v) => injectedStep m property v
    return .populate fresh (fieldSteps m fields ++ injected)
  | none, [constructor] =>
    .ok (.construct constructor.build (constructor.parameters.map (argumentStep m fields)))
  | none, constructors =>
    .error (Fault.of (.ambiguousConstructor m.typeName constructors.length))

/-- The factory of a model for rows with these fields. -/
def compile (m : Model α) (fields : List Field) : Except Fault (ModelFactory α) := do
  return ⟨m.typeName, ← plan? m fields, m.finish⟩

/-! ## Building -/

/-- Names the property at which something failed. -/
def naming {β : Type} (typeName property : String) (answer : Except Fault β) : Except Fault β :=
  answer.mapError fun f => f.context (.mapping (.notPopulated property typeName))

/-- Sets one property; null leaves it as it is. -/
def setProperty (typeName : String) (r : Row) (a : α) (step : PropertyStep α) :
    Except Fault α := do
  match ← naming typeName step.property (step.reading.read r) with
  | some v => naming typeName step.property (step.set a v)
  | none => return a

/-- The value of one parameter. -/
def argument (typeName : String) (r : Row) (step : ArgumentStep) : Except Fault Value := do
  return (← naming typeName step.name (step.reading.read r)).getD step.default

/-- Runs a plan for a row. -/
def run (typeName : String) (r : Row) : Plan α → Except Fault α
  | .populate fresh steps => steps.foldlM (setProperty typeName r) fresh
  | .construct build steps => do build (← steps.mapM (argument typeName r))

/-- The instance of a row. -/
def build (f : ModelFactory α) (r : Row) : Except Fault α := do
  let a ← run f.typeName r f.plan
  match f.finish with
  | some finish => finish a r
  | none => return a

end ModelFactory

/-! ## Results of one value -/

/-- A factory of results of one value, which is read from the first field. -/
structure ScalarFactory where
  ty : Ty
  reading : Reading

namespace ScalarFactory

/-- The factory of a type for rows with these fields. -/
def compile (s : Scalar) (fields : List Field) : Except Fault ScalarFactory :=
  match fields with
  | [] => .error (Fault.of (.mapping (.columnsMissing s.typeName)))
  | field :: _ => .ok ⟨s.ty, Reading.choose 0 field.ty s.ty none⟩

/-- The result of a row; the default of the type stands in for null. -/
def build (f : ScalarFactory) (r : Row) : Except Fault Value := do
  ((← f.reading.read r).getD f.ty.default).take f.ty

end ScalarFactory

end RowQuery
