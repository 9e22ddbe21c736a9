import RowQuery.Model.Schema

/-!
# Records

A record is an instance whose slots are described by data: one for each property that can be
set, or one for each parameter of its constructor.  It also keeps what its last step noted
down.

Main results:

- {lit}`RecordType.model` is the model of a described type.
-/

namespace RowQuery

/-- An instance: its named slots, and the values noted down at last. -/
structure Record where
  slots : List (String × Value)
  noted : List Value
  deriving DecidableEq

/-- How a field is looked at. -/
inductive Accessor where
  | value
  | isNull
  | typed (ty : Ty)
  deriving DecidableEq

/-- Looks at a field. -/
def Accessor.read (a : Accessor) (r : Row) (ordinal : Nat) : Except Fault Value :=
  match a with
  | value => r.value ordinal
  | isNull => (r.isNull ordinal).map .bool
  | typed ty => r.take ordinal ty

/-- A step at the end of the making of a record. -/
inductive FinishStep where
  /-- Notes down what a field holds. -/
  | field (accessor : Accessor) (name : String)
  /-- Notes down what a slot holds. -/
  | slot (index : Nat)
  /-- Fails. -/
  | fail (text : String)
  deriving DecidableEq

/-- The description of a type of records. -/
structure RecordType where
  typeName : String
  table : Table
  hasFresh : Bool
  constructors : List (List (String × Ty))
  setters : List (String × Ty)
  injected : List (String × Value)
  finish : Option (List FinishStep)

namespace RecordType

/-- A record with every slot at its default. -/
def fresh (t : RecordType) : Record :=
  ⟨t.setters.map fun (name, ty) => (name, ty.default), []⟩

/-- Stores a value in the slot at an index, if it is of the type. -/
def store (index : Nat) (ty : Ty) : Setter Record := fun a v => do
  let v ← v.take ty
  return { a with slots := a.slots.modify index fun slot => (slot.1, v) }

/-- The setters, each for its own slot; a name that is used again replaces the setter that it
had. -/
def setterList (t : RecordType) : List (String × Setter Record) :=
  NamedList.ofEntries (t.setters.zipIdx.map fun ((name, ty), index) => (name, store index ty))

/-- A record with one slot for each parameter. -/
def ofArguments (parameters : List (String × Ty)) (values : List Value) : Except Fault Record := do
  let slots ← (parameters.zip values).mapM fun ((name, ty), v) => do return (name, ← v.take ty)
  return ⟨slots, []⟩

/-- What a step notes down. -/
def note (r : Row) (a : Record) : FinishStep → Except Fault Value
  | .field accessor name =>
    match r.ordinal? name with
    | some ordinal => accessor.read r ordinal
    | none => .error (Fault.of (.mapping (.fieldMissing name)))
  | .slot index => .ok ((a.slots[index]?.map Prod.snd).getD .null)
  | .fail text => .error (Fault.of (.plain text))

/-- Runs the last steps. -/
def runFinish (steps : List FinishStep) (a : Record) (r : Row) : Except Fault Record := do
  return { a with noted := a.noted ++ (← steps.mapM (note r a)) }

/-- The model of a type of records.  All constructors make the record of the first one. -/
def model (t : RecordType) : Model Record :=
  { typeName := t.typeName
    table := t.table
    fresh := if t.hasFresh then some t.fresh else none
    constructors := t.constructors.map fun parameters =>
      ⟨parameters, ofArguments (t.constructors.headD [])⟩
    setters := t.setterList
    injected := NamedList.ofEntries t.injected
    finish := t.finish.map runFinish }

end RecordType

end RowQuery
