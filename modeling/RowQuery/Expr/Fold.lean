import RowQuery.Expr.Eval

/-!
# Folding of constant subtrees

Before a query is rendered, the parts of its expressions that do not depend on the row are
replaced by their values.  A first pass marks every node whose whole subtree a rule admits
and which does not hold the row; it leaves one mark per node, in the order of the nodes.  A
second pass walks down from the root, replaces each marked subtree that it meets by its
value, and steps over the marks of what it replaced.

Main results:

- {lit}`Expr.fold` runs both passes for a rule, {lit}`Expr.foldLocal` for the usual one.
- {lit}`length_marks` and {lit}`head_marks` say that the first pass leaves one mark per node
  and that the first of them holds the size of the tree.
-/

namespace RowQuery.Expr

/-! ## Marking -/

/-- What the first pass notes of a node: whether its subtree can be replaced by a value, and
the number of nodes in it. -/
structure Mark where
  foldable : Bool
  size : Nat
  deriving DecidableEq, Repr

/-- Marks a node above marked children.  {lit}`foldable` says whether all of them are. -/
def markAbove (rule : Expr → Bool) (e : Expr) (foldable : Bool) (below : List Mark) :
    List Mark :=
  ⟨foldable && !e.isRow && rule e, below.length + 1⟩ :: below

/-- The first mark of a list says that its subtree can be replaced. -/
def leadsFoldable : List Mark → Bool
  | [] => true
  | m :: _ => m.foldable

mutual

/-- The marks of the nodes of a tree. -/
def marks (rule : Expr → Bool) : Expr → List Mark
  | row n => markAbove rule (row n) true []
  | value v => markAbove rule (value v) true []
  | captured name v => markAbove rule (captured name v) true []
  | field base name ty =>
    let below := marks rule base
    markAbove rule (field base name ty) (leadsFoldable below) below
  | not e =>
    let below := marks rule e
    markAbove rule (not e) (leadsFoldable below) below
  | cast e ty =>
    let below := marks rule e
    markAbove rule (cast e ty) (leadsFoldable below) below
  | call none name args =>
    let below := marksOfList rule args
    markAbove rule (call none name args) below.1 below.2
  | call (some target) name args =>
    let first := marks rule target
    let below := marksOfList rule args
    markAbove rule (call (some target) name args) (leadsFoldable first && below.1)
      (first ++ below.2)
  | binary op lhs rhs =>
    let left := marks rule lhs
    let right := marks rule rhs
    markAbove rule (binary op lhs rhs) (leadsFoldable left && leadsFoldable right)
      (left ++ right)

/-- The marks of the nodes of several trees, and whether all trees can be replaced. -/
def marksOfList (rule : Expr → Bool) : List Expr → Bool × List Mark
  | [] => (true, [])
  | e :: rest =>
    let first := marks rule e
    let below := marksOfList rule rest
    (leadsFoldable first && below.1, first ++ below.2)

end

mutual

/-- The first pass leaves one mark per node. -/
theorem length_marks (rule : Expr → Bool) (e : Expr) : (e.marks rule).length = e.size := by
  match e with
  | row _ | value _ | captured _ _ => rfl
  | field base _ _ => simp [marks, markAbove, size, length_marks rule base]
  | not e => simp [marks, markAbove, size, length_marks rule e]
  | cast e _ => simp [marks, markAbove, size, length_marks rule e]
  | call none _ args => simp [marks, markAbove, size, length_marksOfList rule args]
  | call (some target) _ args =>
    simp [marks, markAbove, size, length_marks rule target, length_marksOfList rule args]
  | binary _ lhs rhs =>
    simp [marks, markAbove, size, length_marks rule lhs, length_marks rule rhs]

/-- The first pass leaves one mark per node of several trees. -/
theorem length_marksOfList (rule : Expr → Bool) (es : List Expr) :
    (marksOfList rule es).2.length = sizeOfList es := by
  match es with
  | [] => rfl
  | e :: rest =>
    simp [marksOfList, sizeOfList, length_marks rule e, length_marksOfList rule rest]

end

/-- The first mark of a tree holds the size of the tree. -/
theorem head_marks (rule : Expr → Bool) (e : Expr) :
    ∃ foldable, (e.marks rule).head? = some ⟨foldable, e.size⟩ := by
  have h := length_marks rule e
  match e with
  | row _ | value _ | captured _ _ => exact ⟨_, rfl⟩
  | field _ _ _ | not _ | cast _ _ | call none _ _ | call (some _) _ _ | binary _ _ _ =>
    simp only [marks, markAbove, List.length_cons] at h
    simp only [marks, markAbove, List.head?_cons, h]
    exact ⟨_, rfl⟩

/-! ## Replacing -/

/-- The constant that stands for a value.  A null keeps an optional type that was expected,
so that the operand can still be seen to admit null. -/
def constant (ty : Ty) (v : Value) : Expr :=
  if v.isNull && ty.isOption then cast (value v) ty else value v

/-- Replaces a subtree by its value.  A constant stays as it is. -/
def collapse (e : Expr) : Except Fault Expr :=
  if e.isValue then .ok e else e.evalConst.map (constant e.staticTy)

/-- The second pass: it knows the table of marks and holds the index of the next node. -/
abbrev Folding := StateT Nat (Except Fault)

/-- Comes to a node.  A marked subtree is replaced and its marks are stepped over; otherwise
the walk goes on inside. -/
def visit (table : Array Mark) (e : Expr) (inside : Folding Expr) : Folding Expr := do
  let index ← get
  match table[index]? with
  | some ⟨true, size⟩ =>
    set (index + size)
    e.collapse
  | _ =>
    set (index + 1)
    inside

mutual

/-- Walks over a tree and replaces what the table marks. -/
def replaceMarked (table : Array Mark) : Expr → Folding Expr
  | row n => visit table (row n) (pure (row n))
  | value v => visit table (value v) (pure (value v))
  | captured name v => visit table (captured name v) (pure (captured name v))
  | field base name ty => visit table (field base name ty) do
    return field (← replaceMarked table base) name ty
  | not e => visit table (not e) do return not (← replaceMarked table e)
  | cast e ty => visit table (cast e ty) do return cast (← replaceMarked table e) ty
  | call none name args => visit table (call none name args) do
    return call none name (← replaceMarkedList table args)
  | call (some target) name args => visit table (call (some target) name args) do
    let target ← replaceMarked table target
    return call (some target) name (← replaceMarkedList table args)
  | binary op lhs rhs => visit table (binary op lhs rhs) do
    let lhs ← replaceMarked table lhs
    return binary op lhs (← replaceMarked table rhs)

/-- Walks over several trees, one after the other. -/
def replaceMarkedList (table : Array Mark) : List Expr → Folding (List Expr)
  | [] => pure []
  | e :: rest => do
    let e ← replaceMarked table e
    return e :: (← replaceMarkedList table rest)

end

/-- Replaces every largest subtree that the rule admits throughout and that does not hold the
row by its value. -/
def fold (rule : Expr → Bool) (e : Expr) : Except Fault Expr :=
  (e.replaceMarked (e.marks rule).toArray).run' 0

/-- Replaces every largest subtree whose nodes need neither the row nor the database. -/
def foldLocal (e : Expr) : Except Fault Expr :=
  e.fold isLocal

end RowQuery.Expr
