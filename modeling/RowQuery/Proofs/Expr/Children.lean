import Mathlib.Data.List.Basic
import RowQuery.Expr.Basic

/-!
# Children of a node

A recursion over expressions does one thing at a node and the same thing for each tree below it,
from left to right.  With the children of a node as a list, what such a recursion keeps can be shown
once for all kinds of nodes.

Main results:

- Definitions {lit}`Expr.children` and {lit}`Expr.withChildren`: the trees below a node, and the
  node with other ones in their place.
- Theorem {lit}`Expr.childrenInduction`: induction from the children to the node.
- Theorems {lit}`Expr.nodes_eq` and {lit}`Expr.size_eq`: the nodes of a tree from those of its
  children.
-/

namespace RowQuery.Expr

/-- The trees below a node, a target before the arguments and a left operand
before the right one. -/
def children : Expr → List Expr
  | row _ | value _ | captured _ _ => []
  | field base _ _ => [base]
  | not e => [e]
  | cast e _ => [e]
  | call none _ args => args
  | call (some target) _ args => target :: args
  | binary _ lhs rhs => [lhs, rhs]

/-- The node with other trees below it, which have to be as many. -/
def withChildren : Expr → List Expr → Expr
  | field _ name ty, [base] => field base name ty
  | not _, [e] => not e
  | cast _ ty, [e] => cast e ty
  | call none method _, args => call none method args
  | call (some _) method _, target :: args => call (some target) method args
  | binary op _ _, [lhs, rhs] => binary op lhs rhs
  | e, _ => e

/-- A node with its own children is itself. -/
@[simp]
theorem withChildren_children (e : Expr) : e.withChildren e.children = e := by
  rcases e with _ | _ | _ | _ | _ | _ | ⟨_ | _, _, _⟩ | _ <;> rfl

/-- A node with as many other trees below it has them for its children. -/
theorem children_withChildren {e : Expr} {cs : List Expr} (h : cs.length = e.children.length) :
    (e.withChildren cs).children = cs := by
  rcases e with _ | _ | _ | _ | _ | _ | ⟨_ | _, _, _⟩ | _
  case row | value | captured => exact (List.eq_nil_of_length_eq_zero h).symm
  case field | not | cast =>
    rcases List.length_eq_one_iff.1 h with ⟨c, rfl⟩
    rfl
  case call.none => rfl
  case call.some =>
    cases cs with
    | nil => cases h
    | cons c rest => rfl
  case binary =>
    rcases List.length_eq_two.1 h with ⟨c, d, rfl⟩
    rfl

/-- Putting the same trees below a node again changes nothing. -/
theorem withChildren_withChildren {e : Expr} {cs : List Expr}
    (h : cs.length = e.children.length) :
    (e.withChildren cs).withChildren cs = e.withChildren cs := by
  have hself := withChildren_children (e.withChildren cs)
  rwa [children_withChildren h] at hself

/-- Whether a node is the row does not depend on what is below it. -/
@[simp]
theorem isRow_withChildren (e : Expr) (cs : List Expr) : (e.withChildren cs).isRow = e.isRow := by
  unfold withChildren
  split <;> rfl

/-- Whether a node needs the row or the database does not depend on what is below it. -/
@[simp]
theorem isLocal_withChildren (e : Expr) (cs : List Expr) :
    (e.withChildren cs).isLocal = e.isLocal := by
  unfold withChildren
  split <;> rfl

/-! ## Nodes -/

/-- The nodes of several trees are those of each of them. -/
theorem nodesOfList_eq_flatMap (es : List Expr) : nodesOfList es = es.flatMap nodes := by
  induction es with
  | nil => rfl
  | cons e rest ih => rw [nodesOfList, ih, List.flatMap_cons]

/-- The nodes of a tree are the node and those of its children. -/
theorem nodes_eq (e : Expr) : e.nodes = e :: nodesOfList e.children := by
  rcases e with _ | _ | _ | _ | _ | _ | ⟨_ | _, _, _⟩ | _ <;> simp [nodes, children, nodesOfList]

/-- The nodes of a child are nodes of the tree. -/
theorem mem_nodes_of_mem_children {e c node : Expr} (hc : c ∈ e.children) (h : node ∈ c.nodes) :
    node ∈ e.nodes := by
  rw [nodes_eq, nodesOfList_eq_flatMap]
  exact List.mem_cons_of_mem e (List.mem_flatMap_of_mem hc h)

/-- The size of a tree is one more than that of its children. -/
theorem size_eq (e : Expr) : e.size = sizeOfList e.children + 1 := by
  rcases e with _ | _ | _ | _ | _ | _ | ⟨_ | _, _, _⟩ | _ <;> simp [size, children, sizeOfList]

/-- A tree is at most as large as a list it is in. -/
theorem size_le_sizeOfList {e : Expr} {es : List Expr} (h : e ∈ es) : e.size ≤ sizeOfList es := by
  induction es with
  | nil => cases h
  | cons e' rest ih =>
    rw [sizeOfList]
    rcases List.mem_cons.1 h with rfl | h
    · omega
    · have hrest := ih h
      omega

/-- A child is smaller than the node. -/
theorem size_lt_of_mem_children {e c : Expr} (h : c ∈ e.children) : c.size < e.size := by
  have hle := size_le_sizeOfList h
  have heq := size_eq e
  omega

/-- What holds of a node whenever it holds of its children holds of all trees. -/
@[elab_as_elim]
theorem childrenInduction {motive : Expr → Prop}
    (node : ∀ e : Expr, (∀ c ∈ e.children, motive c) → motive e) (e : Expr) : motive e :=
  node e fun c _ => childrenInduction node c
termination_by e.size
decreasing_by exact size_lt_of_mem_children ‹_›

end RowQuery.Expr
