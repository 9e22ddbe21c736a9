import RowQuery.Proofs.Expr.Children
import RowQuery.Proofs.Expr.Folding

/-!
# The subtrees that are folded

Folding walks over a tree with a table of marks and an index into it.  This module says what comes
of that without the table: the largest subtrees that a rule admits are replaced, all other nodes
stay, and the first subtree without a value is the fault.  It also says that the walk finds the mark
of every node that it comes to, and that a second run of the usual folding changes nothing.

Main results:

- Definition {lit}`Expr.largest`: the largest subtrees that a rule admits, from left to right.
- Definition {lit}`Expr.replaceLargest`: the tree with others in their place.
- Theorem {lit}`Expr.foldInOne_largest`: what folding makes of a tree, in one equation.
- Theorem {lit}`Expr.keepsPlace_visits`: the second pass comes to each node at its own index.
- Theorem {lit}`Expr.foldInOne_replaceLargest`: what is left is not changed by folding it again.
- Theorem {lit}`Expr.foldsLargest`: all of it together.
-/

namespace RowQuery.Expr

open Outcome

variable {rule : Expr → Bool}

/-! ## Largest subtrees -/

/-- The nodes of a tree in their order, each with the nodes above it. -/
def nodesUnder (above : List Expr) (e : Expr) : List (List Expr × Expr) :=
  (above, e) :: e.children.attach.flatMap fun c => nodesUnder (e :: above) c.1
termination_by e.size
decreasing_by exact size_lt_of_mem_children c.2

/-- The tree at a node is admitted, and no tree above it is. -/
def isLargest (rule : Expr → Bool) (node : List Expr × Expr) : Bool :=
  node.2.foldable rule && node.1.all fun above => !above.foldable rule

/-- The largest subtrees that are admitted, in the order of their nodes. -/
def largest (rule : Expr → Bool) (e : Expr) : List Expr :=
  ((e.nodesUnder []).filter (isLargest rule)).map (·.2)

/-- The tree with others in place of the largest subtrees that are admitted.  All nodes outside of
these stay. -/
def replaceLargest (rule : Expr → Bool) (replacement : Expr → Expr) (e : Expr) : Expr :=
  if e.foldable rule then replacement e
  else e.withChildren (e.children.attach.map fun c => replaceLargest rule replacement c.1)
termination_by e.size
decreasing_by exact size_lt_of_mem_children c.2

/-- The nodes under some are the node and those of its children, which are under it as well. -/
theorem nodesUnder_eq (above : List Expr) (e : Expr) :
    nodesUnder above e = (above, e) :: e.children.flatMap (nodesUnder (e :: above)) := by
  rw [nodesUnder]
  simp

/-- A tree that is admitted is replaced, and otherwise its children are treated. -/
theorem replaceLargest_eq (rule : Expr → Bool) (replacement : Expr → Expr) (e : Expr) :
    e.replaceLargest rule replacement =
      if e.foldable rule then replacement e
      else e.withChildren (e.children.map (replaceLargest rule replacement)) := by
  rw [replaceLargest]
  simp

/-- Under nodes that are not admitted, the largest subtrees are those of the trees on their own;
under others there are none. -/
theorem filter_flatMap_nodesUnder (rule : Expr → Bool) {above es : List Expr}
    (h : ∀ c ∈ es, ((nodesUnder above c).filter (isLargest rule)).map (·.2) =
      if above.all (fun a => !a.foldable rule) then c.largest rule else []) :
    ((es.flatMap (nodesUnder above)).filter (isLargest rule)).map (·.2) =
      if above.all (fun a => !a.foldable rule) then es.flatMap (largest rule) else [] := by
  rw [List.filter_flatMap, List.map_flatMap, List.flatMap_congr h]
  by_cases hall : above.all (fun a => !a.foldable rule) = true
  · simp only [hall, if_true]
  · simp only [hall, Bool.false_eq_true, if_false, List.flatMap_eq_nil_iff, implies_true]

/-- Under nodes that are not admitted, the largest subtrees are those of the tree on its own; under
others there are none. -/
theorem filter_nodesUnder (rule : Expr → Bool) (above : List Expr) (e : Expr) :
    ((nodesUnder above e).filter (isLargest rule)).map (·.2) =
      if above.all (fun a => !a.foldable rule) then e.largest rule else [] := by
  induction e using childrenInduction generalizing above with
  | node e ih =>
    have hbelow (above' : List Expr) :=
      filter_flatMap_nodesUnder rule fun c hc => ih c hc above'
    rw [largest, nodesUnder_eq, nodesUnder_eq, List.filter_cons, List.filter_cons]
    by_cases hall : above.all (fun a => !a.foldable rule) = true
    · cases hfoldable : e.foldable rule <;> simp [isLargest, hall, hfoldable, hbelow]
    · cases hfoldable : e.foldable rule <;> simp [isLargest, hall, hfoldable, hbelow]

/-- A tree that is admitted is the only largest one, and otherwise they are
those of the children. -/
theorem largest_eq (rule : Expr → Bool) (e : Expr) :
    e.largest rule = if e.foldable rule then [e] else e.children.flatMap (largest rule) := by
  have hbelow := filter_flatMap_nodesUnder rule fun c (_ : c ∈ e.children) =>
    filter_nodesUnder rule [e] c
  rw [largest, nodesUnder_eq, List.filter_cons]
  cases hfoldable : e.foldable rule <;> simp [isLargest, hfoldable, hbelow]

/-! ## One pass -/

/-- A tree is admitted if the node and its children are. -/
theorem foldable_eq (rule : Expr → Bool) (e : Expr) :
    e.foldable rule = (e.children.all (foldable rule) && !e.isRow && rule e) := by
  have hlist (es : List Expr) : admitsAll rule (nodesOfList es) = es.all (foldable rule) := by
    induction es with
    | nil => rfl
    | cons c rest ih => rw [nodesOfList, admitsAll_append, ih, List.all_cons, foldable]
  rw [foldable_of_nodes (nodes_eq e), hlist]

/-- One pass treats all nodes alike. -/
theorem foldInOne_eq (rule : Expr → Bool) (e : Expr) :
    e.foldInOne rule =
      collapseOr rule e (do return e.withChildren (← foldListInOne rule e.children)) := by
  have hok {α β : Type} (a : α) (f : α → Except Fault β) : (Except.ok a >>= f) = f a := rfl
  rcases e with _ | _ | _ | _ | _ | _ | ⟨_ | _, _, _⟩ | _
  case row | value | captured => rfl
  case field | call.none | call.some | not | cast | binary =>
    simp only [foldInOne, foldListInOne, children, withChildren, bind_assoc, pure_bind, hok]

/-- The fault of a tree that has no value.  A constant is not evaluated. -/
def fault? (e : Expr) : Option Fault :=
  match e.isValue, e.evalConst with
  | false, .error f => some f
  | _, _ => none

/-- The constant that stands for a tree.  A constant stays as it is. -/
def settled (e : Expr) : Expr :=
  match e.isValue, e.evalConst with
  | false, .ok v => constant e.staticTy v
  | _, _ => e

/-- A fault if there is one, and otherwise an answer. -/
def orFault {α : Type} (f? : Option Fault) (a : α) : Except Fault α :=
  match f? with
  | some f => .error f
  | none => .ok a

/-- There is an answer without a fault. -/
theorem orFault_eq_ok {α : Type} {f? : Option Fault} {a b : α} :
    orFault f? a = .ok b ↔ f? = none ∧ a = b := by
  cases f? <;> simp [orFault]

/-- The fault is the one that there is. -/
theorem orFault_eq_error {α : Type} {f? : Option Fault} {a : α} {f : Fault} :
    orFault f? a = .error f ↔ f? = some f := by
  cases f? <;> simp [orFault]

/-- A tree is replaced by its constant unless it has no value. -/
theorem collapse_eq (e : Expr) : e.collapse = orFault e.fault? e.settled := by
  unfold collapse fault? settled
  cases e.isValue with
  | true => rfl
  | false => cases e.evalConst <;> rfl

/-- What one pass makes of several trees follows from what it makes of each. -/
theorem foldListInOne_of_forall {es : List Expr}
    (h : ∀ c ∈ es, c.foldInOne rule =
      orFault ((c.largest rule).findSome? fault?) (c.replaceLargest rule settled)) :
    foldListInOne rule es =
      orFault ((es.flatMap (largest rule)).findSome? fault?)
        (es.map (replaceLargest rule settled)) := by
  induction es with
  | nil => rfl
  | cons c rest ih =>
    rw [foldListInOne, h c List.mem_cons_self,
      ih fun d hd => h d (List.mem_cons_of_mem c hd), List.flatMap_cons, List.findSome?_append]
    cases (c.largest rule).findSome? fault? with
    | some f => rfl
    | none => cases (rest.flatMap (largest rule)).findSome? fault? <;> rfl

/-- What one pass makes of a tree: the fault of the first largest subtree without a value, or the
tree with constants in place of all of them. -/
theorem foldInOne_largest (rule : Expr → Bool) (e : Expr) :
    e.foldInOne rule =
      orFault ((e.largest rule).findSome? fault?) (e.replaceLargest rule settled) := by
  induction e using childrenInduction with
  | node e ih =>
    rw [foldInOne_eq, collapseOr, largest_eq, replaceLargest_eq]
    by_cases hfoldable : e.foldable rule = true
    · rw [if_pos hfoldable, if_pos hfoldable, if_pos hfoldable, collapse_eq,
        List.findSome?_singleton]
    · rw [if_neg hfoldable, if_neg hfoldable, if_neg hfoldable, foldListInOne_of_forall ih]
      cases (e.children.flatMap (largest rule)).findSome? fault? <;> rfl

/-! ## The walk of the second pass -/

mutual

/-- The nodes that the second pass comes to on its walk over a tree, each with the index of the mark
that it looks up there, and the index behind the tree.  Whether a subtree has a value does not
matter. -/
def visits (table : Array Mark) (e : Expr) (index : Nat) : List (Expr × Nat) × Nat :=
  match table[index]? with
  | some ⟨true, size⟩ => ([(e, index)], index + size)
  | _ =>
    let below := visitsOfList table e.children (index + 1)
    ((e, index) :: below.1, below.2)
termination_by (e.size, 0)
decreasing_by
  left
  have hsize := size_eq e
  omega

/-- The nodes that the second pass comes to on its walk over several trees. -/
def visitsOfList (table : Array Mark) (es : List Expr) (index : Nat) : List (Expr × Nat) × Nat :=
  match es with
  | [] => ([], index)
  | e :: rest =>
    let first := visits table e index
    let others := visitsOfList table rest first.2
    (first.1 ++ others.1, others.2)
termination_by (sizeOfList es, 1)
decreasing_by
  · rw [sizeOfList, Prod.lex_def]
    have hrest := Nat.zero_le (sizeOfList rest)
    dsimp only
    omega
  · rw [sizeOfList]
    left
    have hsize := size_eq e
    omega

end

variable {table table' : Array Mark} {e : Expr} {index size : Nat}

/-- At a marked node the walk comes to no node below. -/
theorem visits_of_marked (h : table[index]? = some ⟨true, size⟩) :
    visits table e index = ([(e, index)], index + size) := by
  rw [visits, h]

/-- At any other node the walk goes on to the children. -/
theorem visits_of_unmarked (h : ∀ size, table[index]? ≠ some ⟨true, size⟩) :
    visits table e index =
      ((e, index) :: (visitsOfList table e.children (index + 1)).1,
        (visitsOfList table e.children (index + 1)).2) := by
  rw [visits]
  split
  · exact absurd ‹_› (h _)
  · rfl

/-- The walk comes to the root of the tree. -/
theorem mem_visits_self (table : Array Mark) (e : Expr) (index : Nat) :
    (e, index) ∈ (visits table e index).1 := by
  rw [visits]
  split <;> exact List.mem_cons_self

/-- What the first pass notes of a node. -/
def noteOf (rule : Expr → Bool) (node : Expr) : Mark :=
  ⟨node.foldable rule, node.size⟩

/-- The first pass treats all nodes alike. -/
theorem marks_eq_markAbove (rule : Expr → Bool) (e : Expr) :
    e.marks rule =
      markAbove rule e (marksOfList rule e.children).1 (marksOfList rule e.children).2 := by
  rcases e with _ | _ | _ | _ | _ | _ | ⟨_ | _, _, _⟩ | _ <;> simp [marks, marksOfList, children]

/-- The first pass leaves the marks of several trees one behind the other. -/
theorem snd_marksOfList (rule : Expr → Bool) (es : List Expr) :
    (marksOfList rule es).2 = es.flatMap (marks rule) := by
  induction es with
  | nil => rfl
  | cons e rest ih => rw [marksOfList, ih, List.flatMap_cons]

/-- The first pass leaves the mark of each node in the order of the nodes. -/
theorem marks_eq_map_nodes (rule : Expr → Bool) (e : Expr) :
    e.marks rule = e.nodes.map (noteOf rule) := by
  induction e using childrenInduction with
  | node e ih =>
    rcases marks_eq_cons rule e with ⟨below, hmarks⟩
    have habove := marks_eq_markAbove rule e
    rw [hmarks] at habove
    have hbelow : below = e.children.flatMap (marks rule) := by
      rw [(List.cons.inj habove).2, snd_marksOfList]
    rw [hmarks, hbelow, List.flatMap_congr ih, nodes_eq, nodesOfList_eq_flatMap, List.map_cons,
      List.map_flatMap]
    rfl

/-- From where some of all nodes stand, a walk over these comes to each node at its index, and comes
out behind them. -/
def KeepsPlace (all nodes : List Expr)
    (walk : Nat → List (Expr × Nat) × Nat) : Prop :=
  ∀ index after, all.drop index = nodes ++ after →
    (∀ node ∈ (walk index).1, all[node.2]? = some node.1) ∧
      (walk index).2 = index + nodes.length

/-- The walk over several trees keeps its place if it does so over each. -/
theorem keepsPlace_visitsOfList {all es : List Expr}
    (h : ∀ c ∈ es, KeepsPlace all c.nodes (visits table c)) :
    KeepsPlace all (nodesOfList es) (visitsOfList table es) := by
  induction es with
  | nil =>
    intro index after _
    rw [visitsOfList]
    exact ⟨nofun, rfl⟩
  | cons c rest ih =>
    intro index after hdrop
    rw [nodesOfList, List.append_assoc] at hdrop
    rcases h c List.mem_cons_self index _ hdrop with ⟨hfirst, hbehind⟩
    have hdrop' : all.drop (visits table c index).2 = nodesOfList rest ++ after := by
      rw [hbehind, ← List.drop_drop, hdrop, List.drop_left]
    rcases ih (fun d hd => h d (List.mem_cons_of_mem c hd)) _ after hdrop' with ⟨hrest, hend⟩
    rw [visitsOfList]
    refine ⟨?_, ?_⟩
    · intro node hnode
      rcases List.mem_append.1 hnode with hnode | hnode
      · exact hfirst node hnode
      · exact hrest node hnode
    · rw [nodesOfList, List.length_append, hend, hbehind, Nat.add_assoc]

/-- With the marks of all nodes in the table, the walk over a tree keeps its place. -/
theorem keepsPlace_visits (rule : Expr → Bool) (all : List Expr) (e : Expr) :
    KeepsPlace all e.nodes (visits (all.map (noteOf rule)).toArray e) := by
  induction e using childrenInduction with
  | node e ih =>
    intro index after hdrop
    rw [nodes_eq, List.cons_append] at hdrop
    have hself : all[index]? = some e := by
      rw [← List.head?_drop, hdrop]
      rfl
    have hmark : (all.map (noteOf rule)).toArray[index]? = some (noteOf rule e) := by
      rw [List.getElem?_toArray, List.getElem?_map, hself]
      rfl
    cases hfoldable : e.foldable rule with
    | true =>
      rw [noteOf, hfoldable] at hmark
      rw [visits_of_marked hmark]
      refine ⟨?_, ?_⟩
      · intro node hnode
        cases List.mem_singleton.1 hnode
        exact hself
      · rw [length_nodes]
    | false =>
      rw [noteOf, hfoldable] at hmark
      rw [visits_of_unmarked (by simp [hmark])]
      have hbelow : all.drop (index + 1) = nodesOfList e.children ++ after := by
        rw [← List.drop_drop, hdrop]
        rfl
      rcases keepsPlace_visitsOfList ih _ _ hbelow with ⟨hnodes, hend⟩
      refine ⟨?_, ?_⟩
      · intro node hnode
        rcases List.mem_cons.1 hnode with rfl | hnode
        · exact hself
        · exact hnodes node hnode
      · rw [nodes_eq, List.length_cons, hend]
        omega

/-- The second pass treats all nodes alike. -/
theorem replaceMarked_eq_visit (table : Array Mark) (e : Expr) :
    e.replaceMarked table =
      visit table e (do return e.withChildren (← replaceMarkedList table e.children)) := by
  rcases e with _ | _ | _ | _ | _ | _ | ⟨_ | _, _, _⟩ | _
  case row | value | captured => rfl
  case field | call.none | call.some | not | cast | binary =>
    simp only [replaceMarked, replaceMarkedList, children, withChildren, bind_assoc, pure_bind]

/-- At a node, the index leads to a mark, which decides. -/
theorem run_visit (table : Array Mark) (e : Expr) (inside : Folding Expr) (index : Nat) :
    (visit table e inside).run index =
      match table[index]? with
      | some ⟨true, size⟩ => e.collapse.map fun e' => (e', index + size)
      | _ => inside.run (index + 1) := by
  have hget : (get : Folding Nat).run index = pure (index, index) := rfl
  rw [visit, StateT.run_bind, hget, pure_bind]
  rcases table[index]? with _ | ⟨_ | _, size⟩ <;> rfl

/-- At a marked node, the second pass replaces the tree. -/
theorem run_visit_of_marked (h : table[index]? = some ⟨true, size⟩) (inside : Folding Expr) :
    (visit table e inside).run index = e.collapse.map fun e' => (e', index + size) := by
  rw [run_visit, h]

/-- At any other node, the second pass goes on inside. -/
theorem run_visit_of_unmarked (h : ∀ size, table[index]? ≠ some ⟨true, size⟩)
    (inside : Folding Expr) : (visit table e inside).run index = inside.run (index + 1) := by
  rw [run_visit]
  split
  · exact absurd ‹_› (h _)
  · rfl

/-- Two walks from an index on are the same, and come out at another index unless they fail. -/
structure SameWalk {α : Type} (walk' walk : Folding α) (index behind : Nat) : Prop where
  run_eq : walk'.run index = walk.run index
  behind_eq : ∀ {a : α} {i : Nat}, walk.run index = .ok (a, i) → i = behind

namespace SameWalk

variable {α β : Type} {index middle behind : Nat}

/-- A plain answer leaves the index as it is. -/
theorem pure (a : α) (index : Nat) : SameWalk (Pure.pure a) (Pure.pure a) index index :=
  ⟨rfl, fun h => (run_pure_eq_ok.1 h).2.symm⟩

/-- One walk behind another. -/
theorem bind {walk' walk : Folding α} {next' next : α → Folding β}
    (h : SameWalk walk' walk index middle)
    (hnext : ∀ a, SameWalk (next' a) (next a) middle behind) :
    SameWalk (walk' >>= next') (walk >>= next) index behind := by
  refine ⟨?_, ?_⟩
  · rw [StateT.run_bind, StateT.run_bind, h.run_eq]
    cases hrun : walk.run index with
    | error f => rfl
    | ok p =>
      cases h.behind_eq hrun
      exact (hnext p.1).run_eq
  · intro b i hrun
    rcases run_bind_eq_ok.1 hrun with ⟨a, u, hwalk, hrun⟩
    cases h.behind_eq hwalk
    exact (hnext a).behind_eq hrun

end SameWalk

/-- The walk over several trees reads no mark but those that it comes to, if this holds of the
walk over each of them. -/
theorem sameWalk_replaceMarkedList {es : List Expr}
    (h : ∀ c ∈ es, ∀ index, (∀ node ∈ (visits table c index).1, table'[node.2]? = table[node.2]?) →
      SameWalk (c.replaceMarked table') (c.replaceMarked table) index (visits table c index).2)
    (hagree : ∀ node ∈ (visitsOfList table es index).1, table'[node.2]? = table[node.2]?) :
    SameWalk (replaceMarkedList table' es) (replaceMarkedList table es) index
      (visitsOfList table es index).2 := by
  induction es generalizing index with
  | nil =>
    rw [visitsOfList]
    exact .pure _ _
  | cons c rest ih =>
    rw [visitsOfList] at hagree ⊢
    refine (h c List.mem_cons_self index fun node hnode =>
      hagree node (List.mem_append_left _ hnode)).bind fun c' => ?_
    have hrest := ih (fun d hd => h d (List.mem_cons_of_mem c hd)) fun node hnode =>
      hagree node (List.mem_append_right _ hnode)
    exact hrest.bind fun _ => .pure _ _

/-- The walk over a tree reads no mark but those that it comes to: with other marks elsewhere, or
none at all, it does the same. -/
theorem sameWalk_replaceMarked
    (hagree : ∀ node ∈ (visits table e index).1, table'[node.2]? = table[node.2]?) :
    SameWalk (e.replaceMarked table') (e.replaceMarked table) index (visits table e index).2 := by
  induction e using childrenInduction generalizing index with
  | node e ih =>
    have hself : table'[index]? = table[index]? := hagree (e, index) (mem_visits_self _ _ _)
    rw [replaceMarked_eq_visit, replaceMarked_eq_visit]
    by_cases hmark : ∃ size, table[index]? = some ⟨true, size⟩
    · rcases hmark with ⟨size, hmark⟩
      refine ⟨?_, ?_⟩
      · rw [run_visit_of_marked hmark, run_visit_of_marked (hself.trans hmark)]
      · intro e' behind hrun
        rw [run_visit_of_marked hmark] at hrun
        rcases map_eq_ok.1 hrun with ⟨_, _, hrun⟩
        rw [visits_of_marked hmark]
        exact (Prod.mk.inj hrun).2.symm
    · have hmark : ∀ size, table[index]? ≠ some ⟨true, size⟩ := not_exists.1 hmark
      rw [visits_of_unmarked hmark] at hagree ⊢
      have hbelow := sameWalk_replaceMarkedList (fun c hc _ => ih c hc) fun node hnode =>
        hagree node (List.mem_cons_of_mem _ hnode)
      have hinside := hbelow.bind fun cs => SameWalk.pure (e.withChildren cs) _
      refine ⟨?_, ?_⟩
      · rw [run_visit_of_unmarked hmark, run_visit_of_unmarked (hself ▸ hmark)]
        exact hinside.run_eq
      · intro e' behind hrun
        rw [run_visit_of_unmarked hmark] at hrun
        exact hinside.behind_eq hrun

/-! ## A second run -/

/-- Folding leaves what stands for a value as it is. -/
theorem collapse_constant (ty : Ty) (v : Value) :
    (constant ty v).collapse = .ok (constant ty v) := by
  unfold constant
  split
  · rename_i h
    rcases Bool.and_eq_true_iff.1 h with ⟨hnull, hoption⟩
    have hv : v = .null := by
      cases v <;> first | rfl | cases hnull
    have heval : (cast (value v) ty).evalConst = .ok v := by
      rw [hv]
      exact Value.cast_null ty
    rw [collapse, heval]
    simp [isValue, Except.map, constant, staticTy, hnull, hoption]
  · rfl

/-- What stands for a value is admitted. -/
theorem foldable_constant (ty : Ty) (v : Value) : (constant ty v).foldable isLocal = true := by
  unfold constant
  split <;> rfl

/-- Folding leaves the constant that stands for a tree as it is, which is
admitted as the tree is. -/
theorem foldInOne_settled {e : Expr} (hfoldable : e.foldable isLocal = true)
    (hfault : e.fault? = none) :
    e.settled.foldInOne isLocal = .ok e.settled ∧ e.settled.foldable isLocal = true := by
  have hadmitted : e.settled.foldable isLocal = true := by
    unfold settled
    split
    · exact foldable_constant _ _
    · exact hfoldable
  refine ⟨?_, hadmitted⟩
  rw [foldInOne_eq, collapseOr, if_pos hadmitted]
  unfold settled fault? at *
  cases hvalue : e.isValue with
  | true => rw [collapse, if_pos hvalue]
  | false =>
    rw [hvalue] at hfault
    cases hconst : e.evalConst with
    | error f =>
      rw [hconst] at hfault
      cases hfault
    | ok v => exact collapse_constant _ _

/-- Folding leaves several trees as they are if it leaves each of them. -/
theorem foldListInOne_self {es : List Expr} (h : ∀ c ∈ es, c.foldInOne rule = .ok c) :
    foldListInOne rule es = .ok es := by
  induction es with
  | nil => rfl
  | cons c rest ih =>
    rw [foldListInOne, h c List.mem_cons_self, ih fun d hd => h d (List.mem_cons_of_mem c hd)]
    rfl

/-- With constants in place of the largest subtrees, folding leaves a tree as it is. -/
theorem foldInOne_replaceLargest {e : Expr} (h : ∀ t ∈ e.largest isLocal, t.fault? = none) :
    (e.replaceLargest isLocal settled).foldInOne isLocal =
        .ok (e.replaceLargest isLocal settled) ∧
      (e.replaceLargest isLocal settled).foldable isLocal = e.foldable isLocal := by
  induction e using childrenInduction with
  | node e ih =>
    rw [largest_eq] at h
    rw [replaceLargest_eq]
    cases hfoldable : e.foldable isLocal with
    | true =>
      rw [hfoldable, if_pos rfl] at h
      exact foldInOne_settled hfoldable (h e (List.mem_singleton_self e))
    | false =>
      rw [hfoldable, if_neg Bool.false_ne_true] at h
      rw [if_neg Bool.false_ne_true]
      have hchild (c : Expr) (hc : c ∈ e.children) :=
        ih c hc fun t ht => h t (List.mem_flatMap_of_mem hc ht)
      have hlength : (e.children.map (replaceLargest isLocal settled)).length =
          e.children.length := List.length_map _
      have hall : (e.children.map (replaceLargest isLocal settled)).all (foldable isLocal) =
          e.children.all (foldable isLocal) := by
        rw [List.all_map, Bool.eq_iff_iff, List.all_eq_true, List.all_eq_true]
        exact forall₂_congr fun c hc => by rw [Function.comp_apply, (hchild c hc).2]
      have hsame : (e.withChildren (e.children.map (replaceLargest isLocal settled))).foldable
          isLocal = false := by
        rw [foldable_eq, children_withChildren hlength, isRow_withChildren, isLocal_withChildren,
          hall, ← hfoldable, foldable_eq]
      have hbelow : foldListInOne isLocal (e.children.map (replaceLargest isLocal settled)) =
          .ok (e.children.map (replaceLargest isLocal settled)) :=
        foldListInOne_self (List.forall_mem_map.2 fun c hc => (hchild c hc).1)
      refine ⟨?_, hsame⟩
      rw [foldInOne_eq, collapseOr, hsame, if_neg Bool.false_ne_true,
        children_withChildren hlength, hbelow]
      exact congrArg Except.ok (withChildren_withChildren hlength)

/-! ## The whole -/

/-- A tree has a value, or is a constant. -/
theorem fault?_eq_none_iff {e : Expr} :
    e.fault? = none ↔ (e.isValue = false → ∃ v, e.evalConst = .ok v) := by
  unfold fault?
  cases e.isValue <;> cases e.evalConst <;> simp

/-- A tree has a fault if it is no constant and its value is that fault. -/
theorem fault?_eq_some_iff {e : Expr} {f : Fault} :
    e.fault? = some f ↔ e.isValue = false ∧ e.evalConst = .error f := by
  unfold fault?
  cases e.isValue <;> cases e.evalConst <;> simp

/-- What folding does with a tree, in terms of the largest subtrees that the rule admits. -/
structure FoldsLargest (rule : Expr → Bool) (e : Expr) : Prop where
  /-- Folding succeeds when each of them is a constant or has a value. -/
  succeeds : (∃ e', e.fold rule = .ok e') ↔
    ∀ t ∈ e.largest rule, t.isValue = false → ∃ v, t.evalConst = .ok v
  /-- What is left is the tree with their values in place of them. -/
  replaces : ∀ e', e.fold rule = .ok e' → e' = e.replaceLargest rule settled
  /-- A fault is the one of the first of them that has no value. -/
  fails : ∀ f, e.fold rule = .error f → ∃ earlier t later, e.largest rule = earlier ++ t :: later ∧
    (∀ s ∈ earlier, s.isValue = false → ∃ v, s.evalConst = .ok v) ∧
    t.isValue = false ∧ t.evalConst = .error f
  /-- Each node that the second pass comes to is the one at its index in the order of the nodes, and
  its own mark is there in the table. -/
  inRange : ∀ node ∈ (visits (e.marks rule).toArray e 0).1, e.nodes[node.2]? = some node.1 ∧
    (e.marks rule).toArray[node.2]? = some (noteOf rule node.1)
  /-- The second pass reads no other entries of the table. -/
  readsOnly : ∀ table : Array Mark,
    (∀ node ∈ (visits (e.marks rule).toArray e 0).1,
      table[node.2]? = (e.marks rule).toArray[node.2]?) →
    (e.replaceMarked table).run' 0 = e.fold rule

/-- For every rule, folding replaces the largest subtrees that the rule admits, and its
second pass finds the mark of each node that it comes to.  With the usual rule, what is
left is folded to itself. -/
theorem foldsLargest (rule : Expr → Bool) (e : Expr) :
    FoldsLargest rule e ∧ ∀ e', e.foldLocal = .ok e' → e'.foldLocal = .ok e' := by
  have hfold (rule : Expr → Bool) : e.fold rule =
      orFault ((e.largest rule).findSome? fault?) (e.replaceLargest rule settled) := by
    rw [fold_eq, foldInOne_largest]
  refine ⟨⟨?_, ?_, ?_, ?_, ?_⟩, ?_⟩
  · simp only [hfold, orFault_eq_ok, List.findSome?_eq_none_iff, fault?_eq_none_iff,
      exists_and_left, exists_eq', and_true]
  · intro e' h
    rw [hfold] at h
    exact (orFault_eq_ok.1 h).2.symm
  · intro f h
    rw [hfold, orFault_eq_error] at h
    rcases List.findSome?_eq_some_iff.1 h with ⟨earlier, t, later, hlargest, ht, hearlier⟩
    rcases fault?_eq_some_iff.1 ht with ⟨hvalue, herror⟩
    exact ⟨earlier, t, later, hlargest, fun s hs => fault?_eq_none_iff.1 (hearlier s hs), hvalue,
      herror⟩
  · intro node hnode
    rw [marks_eq_map_nodes] at hnode ⊢
    have hplace := (keepsPlace_visits rule e.nodes e 0 [] (by simp)).1 node hnode
    refine ⟨hplace, ?_⟩
    rw [List.getElem?_toArray, List.getElem?_map, hplace]
    rfl
  · intro table hagree
    rw [fold, StateT.run'_eq, StateT.run'_eq, (sameWalk_replaceMarked hagree).run_eq]
  · intro e' h
    rw [foldLocal, hfold, orFault_eq_ok] at h
    rcases h with ⟨hfault, rfl⟩
    rw [foldLocal, fold_eq]
    exact (foldInOne_replaceLargest (List.findSome?_eq_none_iff.1 hfault)).1

end RowQuery.Expr
