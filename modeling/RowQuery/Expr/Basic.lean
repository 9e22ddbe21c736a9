import RowQuery.Value.Basic

/-!
# Expressions

Conditions and keys over one row are trees.  The row itself is a leaf, and so are constants
and captured variables, whose value is known.

Main results:

- {lit}`Expr.nodes` lists the nodes of a tree, each before its children; {lit}`Expr.size`
  counts them, as {lit}`length_nodes` says.
- {lit}`Expr.mentionsRow` looks for the row in a tree.
- {lit}`Expr.staticTy` is the type that a tree can be expected to have.
-/

namespace RowQuery

/-- An expression over a row. -/
inductive Expr where
  /-- A parameter, which stands for the row. -/
  | row (position : Nat)
  /-- A constant. -/
  | value (v : Value)
  /-- A variable whose value was captured. -/
  | captured (name : String) (v : Value)
  /-- A member of an object, with its type. -/
  | field (base : Expr) (name : String) (ty : Ty)
  /-- The negation of a condition. -/
  | not (e : Expr)
  /-- A conversion to a type. -/
  | cast (e : Expr) (ty : Ty)
  /-- A call of a method by name, on a target if it is not static. -/
  | call (target : Option Expr) (method : String) (args : List Expr)
  /-- Two operands with an operator between them. -/
  | binary (op : BinaryOp) (lhs rhs : Expr)

namespace Expr

instance : Inhabited Expr := ⟨value .null⟩

/-! ## Shapes -/

/-- The expression is the row. -/
def isRow : Expr → Bool
  | row _ => true
  | _ => false

/-- The expression is a constant. -/
def isValue : Expr → Bool
  | value _ => true
  | _ => false

/-- The expression is a member of something. -/
def isField : Expr → Bool
  | field _ _ _ => true
  | _ => false

/-- The expression is a member of the row. -/
def isRowMember : Expr → Bool
  | field base _ _ => base.isRow
  | _ => false

/-- The expression is a conversion. -/
def isCast : Expr → Bool
  | cast _ _ => true
  | _ => false

/-- The expression is a negation. -/
def isNot : Expr → Bool
  | not _ => true
  | _ => false

/-- The expression is an equation. -/
def isEq : Expr → Bool
  | binary (.compare .eq) _ _ => true
  | _ => false

/-- The constant that the expression is. -/
def value? : Expr → Option Value
  | value v => some v
  | _ => none

/-- The kinds of nodes. -/
inductive Kind where
  | row
  | value
  | captured
  | field
  | not
  | cast
  | call
  | binary
  deriving DecidableEq, Repr

/-- The kind of a node. -/
def kind : Expr → Kind
  | row _ => .row
  | value _ => .value
  | captured _ _ => .captured
  | field _ _ _ => .field
  | not _ => .not
  | cast _ _ => .cast
  | call _ _ _ => .call
  | binary _ _ _ => .binary

/-! ## Nodes -/

mutual

/-- The nodes of a tree: each before its children, a target before the arguments and a left
operand before the right one. -/
def nodes : Expr → List Expr
  | row n => [row n]
  | value v => [value v]
  | captured name v => [captured name v]
  | field base name ty => field base name ty :: nodes base
  | not e => not e :: nodes e
  | cast e ty => cast e ty :: nodes e
  | call none method args => call none method args :: nodesOfList args
  | call (some target) method args =>
    call (some target) method args :: (nodes target ++ nodesOfList args)
  | binary op lhs rhs => binary op lhs rhs :: (nodes lhs ++ nodes rhs)

/-- The nodes of several trees, one tree after the other. -/
def nodesOfList : List Expr → List Expr
  | [] => []
  | e :: rest => nodes e ++ nodesOfList rest

end

mutual

/-- The number of nodes of a tree. -/
def size : Expr → Nat
  | row _ => 1
  | value _ => 1
  | captured _ _ => 1
  | field base _ _ => size base + 1
  | not e => size e + 1
  | cast e _ => size e + 1
  | call none _ args => sizeOfList args + 1
  | call (some target) _ args => size target + sizeOfList args + 1
  | binary _ lhs rhs => size lhs + size rhs + 1

/-- The number of nodes of several trees. -/
def sizeOfList : List Expr → Nat
  | [] => 0
  | e :: rest => size e + sizeOfList rest

end

mutual

/-- The nodes are listed one by one. -/
theorem length_nodes (e : Expr) : e.nodes.length = e.size := by
  match e with
  | row _ | value _ | captured _ _ => rfl
  | field base _ _ => simp [nodes, size, length_nodes base]
  | not e => simp [nodes, size, length_nodes e]
  | cast e _ => simp [nodes, size, length_nodes e]
  | call none _ args => simp [nodes, size, length_nodesOfList args]
  | call (some target) _ args =>
    simp [nodes, size, length_nodes target, length_nodesOfList args]
  | binary _ lhs rhs => simp [nodes, size, length_nodes lhs, length_nodes rhs]

/-- The nodes of several trees are listed one by one. -/
theorem length_nodesOfList (es : List Expr) : (nodesOfList es).length = sizeOfList es := by
  match es with
  | [] => rfl
  | e :: rest => simp [nodesOfList, sizeOfList, length_nodes e, length_nodesOfList rest]

end

/-! ## Analyses -/

mutual

/-- The row occurs somewhere in the tree. -/
def mentionsRow : Expr → Bool
  | row _ => true
  | value _ => false
  | captured _ _ => false
  | field base _ _ => mentionsRow base
  | not e => mentionsRow e
  | cast e _ => mentionsRow e
  | call none _ args => anyMentionsRow args
  | call (some target) _ args => mentionsRow target || anyMentionsRow args
  | binary _ lhs rhs => mentionsRow lhs || mentionsRow rhs

/-- The row occurs in one of several trees. -/
def anyMentionsRow : List Expr → Bool
  | [] => false
  | e :: rest => mentionsRow e || anyMentionsRow rest

end

/-- The type of a computation with operands of two types: text if one is text, else the type
on the left, unless that is unknown. -/
def computedTy (left right : Ty) : Ty :=
  if left.isText || right.isText then .text
  else if left = .unknown then right
  else left

/-- The type of a call. -/
def callTy (method : String) : Ty :=
  match Method.ofName? method with
  | some m => if m.isPredicate then .bool else .text
  | none => .unknown

/-- The type that a tree can be expected to have. -/
def staticTy : Expr → Ty
  | row _ => .unknown
  | value v => v.ty
  | captured _ v => v.ty
  | field _ _ ty => ty
  | not _ => .bool
  | cast _ ty => ty
  | call _ method _ => callTy method
  | binary (.compute _) lhs rhs => computedTy lhs.staticTy rhs.staticTy
  | binary _ _ _ => .bool

/-- The node, its children apart, needs neither the row nor the database. -/
def isLocal : Expr → Bool
  | row _ => false
  | field _ _ _ => false
  | call _ method _ => (Method.ofName? method).isSome
  | _ => true

end Expr

end RowQuery
