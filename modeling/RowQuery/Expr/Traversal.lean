import RowQuery.Expr.Basic

/-!
# Traversals of expressions

Two ways to walk over a tree in the order of its nodes: to watch what is met, and to edit
what the nodes carry while their arrangement stays.

Main results:

- {lit}`Expr.watchM` is the walk that changes nothing; {lit}`Expr.forEachM` does something at
  every node on it.
- {lit}`Expr.events` tells what a walk meets, node by node.
- {lit}`Expr.editM` edits what the nodes carry, each node before its children;
  {lit}`Expr.edit` does so without effects.
-/

namespace RowQuery

/-! ## Watching -/

namespace Expr

mutual

/-- Walks over a tree.  {lit}`around` says what is done at a tree, given the walk over the trees
below it. -/
def watchM {m : Type → Type} [Monad m] (around : Expr → m Unit → m Unit) : Expr → m Unit
  | row position => around (row position) (pure ())
  | value v => around (value v) (pure ())
  | captured name v => around (captured name v) (pure ())
  | field base name ty => around (field base name ty) (watchM around base)
  | not e => around (not e) (watchM around e)
  | cast e ty => around (cast e ty) (watchM around e)
  | call none method args => around (call none method args) (watchListM around args)
  | call (some target) method args => around (call (some target) method args) do
    watchM around target
    watchListM around args
  | binary op lhs rhs => around (binary op lhs rhs) do
    watchM around lhs
    watchM around rhs

/-- Walks over several trees, one after the other. -/
def watchListM {m : Type → Type} [Monad m] (around : Expr → m Unit → m Unit) :
    List Expr → m Unit
  | [] => pure ()
  | e :: rest => do
    watchM around e
    watchListM around rest

end

/-- Does something at every node, at each before its children. -/
def forEachM {m : Type → Type} [Monad m] (f : Expr → m Unit) (e : Expr) : m Unit :=
  e.watchM fun node inside => do
    f node
    inside

end Expr

/-- What a walk over a tree meets. -/
inductive Event where
  | row (position : Nat)
  | value (ty : Ty)
  | captured (name : String)
  | field (name : String)
  | not
  | cast (ty : Ty)
  | call (method : String)
  | binary (op : BinaryOp)
  deriving DecidableEq

/-- The wording of an event. -/
def Event.text : Event → String
  | row position => s!"arg {position}"
  | value ty => s!"value {ty.label}"
  | captured name => s!"var {name}"
  | field name => s!"field {name}"
  | not => "not"
  | cast ty => s!"cast {ty.label}"
  | call method => s!"call {method}"
  | binary op => s!"binary {op.symbol}"

namespace Expr

/-- What a walk meets at a node; at a captured variable it meets the value as well. -/
def eventsHere : Expr → List Event
  | row position => [.row position]
  | value v => [.value v.ty]
  | captured name v => [.captured name, .value v.ty]
  | field _ name _ => [.field name]
  | not _ => [.not]
  | cast _ ty => [.cast ty]
  | call _ method _ => [.call method]
  | binary op _ _ => [.binary op]

/-- What a walk over the tree meets. -/
def events (e : Expr) : List Event :=
  ((e.forEachM fun node => modify (· ++ node.eventsHere) : StateM (List Event) Unit).run []).2

end Expr

/-! ## Editing -/

/-- What to do at the nodes of a tree.  What is not given leaves everything as it is. -/
structure Editor (m : Type → Type) [Monad m] where
  /-- Done on coming to a tree, before anything in it is edited. -/
  enter : Expr → m Unit := fun _ => pure ()
  position : Nat → m Nat := pure
  value : Value → m Value := pure
  capturedName : String → m String := pure
  fieldName : String → m String := pure
  fieldTy : Ty → m Ty := pure
  castTy : Ty → m Ty := pure
  method : String → m String := pure
  operator : BinaryOp → m BinaryOp := pure

namespace Expr

mutual

/-- Edits what the nodes of a tree carry, in the order of the nodes. -/
def editM {m : Type → Type} [Monad m] (r : Editor m) : Expr → m Expr
  | row position => do
    r.enter (row position)
    return row (← r.position position)
  | value v => do
    r.enter (value v)
    return value (← r.value v)
  | captured name v => do
    r.enter (captured name v)
    let name ← r.capturedName name
    return captured name (← r.value v)
  | field base name ty => do
    r.enter (field base name ty)
    let name ← r.fieldName name
    let ty ← r.fieldTy ty
    return field (← editM r base) name ty
  | not e => do
    r.enter (not e)
    return not (← editM r e)
  | cast e ty => do
    r.enter (cast e ty)
    let ty ← r.castTy ty
    return cast (← editM r e) ty
  | call none method args => do
    r.enter (call none method args)
    let method ← r.method method
    return call none method (← editListM r args)
  | call (some target) method args => do
    r.enter (call (some target) method args)
    let method ← r.method method
    let target ← editM r target
    return call (some target) method (← editListM r args)
  | binary op lhs rhs => do
    r.enter (binary op lhs rhs)
    let op ← r.operator op
    let lhs ← editM r lhs
    return binary op lhs (← editM r rhs)

/-- Edits what the nodes of several trees carry, one tree after the other. -/
def editListM {m : Type → Type} [Monad m] (r : Editor m) : List Expr → m (List Expr)
  | [] => pure []
  | e :: rest => do
    let e ← editM r e
    return e :: (← editListM r rest)

end

/-- Edits what the nodes of a tree carry, without effects. -/
def edit (r : Editor Id) (e : Expr) : Expr :=
  (e.editM r).run

end Expr

/-- An editor that changes every position, every name, and the values of two kinds, so that
a payload which a traversal misses or meets twice can be told. -/
def Editor.marking : Editor Id where
  position n := pure (n + 1)
  fieldName name := pure (Text.upperAscii name)
  capturedName name := pure ("v_" ++ name)
  value
    | .int32 n => pure (.int32 (2 * n))
    | .text s => pure (.text (s ++ "!"))
    | v => pure v

end RowQuery
