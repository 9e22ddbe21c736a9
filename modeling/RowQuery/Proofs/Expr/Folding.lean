import RowQuery.Expr.Fold
import RowQuery.Proofs.Outcome

/-!
# Folding keeps the meaning

The two passes of folding are tied together by the order of the nodes alone.  This module puts
them together into one pass, which decides at each node by looking at the nodes below, and shows
that the pass leaves an expression of the same value for every row.

Main results:

- Definition {lit}`Expr.foldInOne`: folding in one pass.
- Theorem {lit}`Expr.replaceMarked_eq`: where the marks of a tree stand in the table, the second
  pass does the same and comes out behind them.
- Theorem {lit}`Expr.eval_fold`: what folding leaves has the value of what was folded.
-/

namespace RowQuery.Expr

open Outcome

variable {rule : Expr → Bool}

/-! ## One pass -/

/-- The nodes are all admitted by a rule, and none of them is the row. -/
def admitsAll (rule : Expr → Bool) (nodes : List Expr) : Bool :=
  nodes.all fun node => !node.isRow && rule node

/-- The whole tree is admitted by a rule and does not hold the row. -/
def foldable (rule : Expr → Bool) (e : Expr) : Bool := admitsAll rule e.nodes

/-- Replaces a tree that is admitted by its value, and goes on inside of any other. -/
def collapseOr (rule : Expr → Bool) (e : Expr) (inside : Except Fault Expr) : Except Fault Expr :=
  if e.foldable rule then e.collapse else inside

mutual

/-- Replaces the largest trees that are admitted by their values. -/
def foldInOne (rule : Expr → Bool) : Expr → Except Fault Expr
  | row n => collapseOr rule (row n) (.ok (row n))
  | value v => collapseOr rule (value v) (.ok (value v))
  | captured name v => collapseOr rule (captured name v) (.ok (captured name v))
  | field base name ty => collapseOr rule (field base name ty) do
    return field (← foldInOne rule base) name ty
  | not e => collapseOr rule (not e) do return not (← foldInOne rule e)
  | cast e ty => collapseOr rule (cast e ty) do return cast (← foldInOne rule e) ty
  | call none name args => collapseOr rule (call none name args) do
    return call none name (← foldListInOne rule args)
  | call (some target) name args => collapseOr rule (call (some target) name args) do
    let target ← foldInOne rule target
    return call (some target) name (← foldListInOne rule args)
  | binary op lhs rhs => collapseOr rule (binary op lhs rhs) do
    let lhs ← foldInOne rule lhs
    return binary op lhs (← foldInOne rule rhs)

/-- Replaces the largest trees that are admitted in several trees. -/
def foldListInOne (rule : Expr → Bool) : List Expr → Except Fault (List Expr)
  | [] => .ok []
  | e :: rest => do
    let e ← foldInOne rule e
    return e :: (← foldListInOne rule rest)

end

/-! ## Marks -/

/-- Nodes are admitted if those of both parts are. -/
theorem admitsAll_append (rule : Expr → Bool) (nodes nodes' : List Expr) :
    admitsAll rule (nodes ++ nodes') = (admitsAll rule nodes && admitsAll rule nodes') :=
  List.all_append

/-- A tree is admitted if the nodes below are and the node is. -/
theorem foldable_of_nodes {e : Expr} {below : List Expr} (h : e.nodes = e :: below) :
    e.foldable rule = (admitsAll rule below && !e.isRow && rule e) := by
  rw [foldable, h, admitsAll, List.all_cons, Bool.and_comm, Bool.and_assoc]
  rfl

mutual

/-- The first mark of a tree says whether the whole tree is admitted. -/
theorem leadsFoldable_marks (rule : Expr → Bool) (e : Expr) :
    leadsFoldable (e.marks rule) = e.foldable rule := by
  match e with
  | row _ | value _ | captured _ _ =>
    rw [foldable_of_nodes rfl]
    rfl
  | field base _ _ =>
    rw [foldable_of_nodes rfl, ← foldable, ← leadsFoldable_marks rule base]
    rfl
  | not e =>
    rw [foldable_of_nodes rfl, ← foldable, ← leadsFoldable_marks rule e]
    rfl
  | cast e _ =>
    rw [foldable_of_nodes rfl, ← foldable, ← leadsFoldable_marks rule e]
    rfl
  | call none _ args =>
    rw [foldable_of_nodes rfl, ← fst_marksOfList rule args]
    rfl
  | call (some target) _ args =>
    rw [foldable_of_nodes rfl, admitsAll_append, ← foldable, ← leadsFoldable_marks rule target,
      ← fst_marksOfList rule args]
    rfl
  | binary _ lhs rhs =>
    rw [foldable_of_nodes rfl, admitsAll_append, ← foldable, ← foldable,
      ← leadsFoldable_marks rule lhs, ← leadsFoldable_marks rule rhs]
    rfl

/-- The marks of several trees tell whether all trees are admitted. -/
theorem fst_marksOfList (rule : Expr → Bool) (es : List Expr) :
    (marksOfList rule es).1 = admitsAll rule (nodesOfList es) := by
  match es with
  | [] => rfl
  | e :: rest =>
    rw [marksOfList, leadsFoldable_marks rule e, fst_marksOfList rule rest]
    exact (admitsAll_append rule e.nodes (nodesOfList rest)).symm

end

/-- The table holds these marks from an index on. -/
def HoldsMarks (table : Array Mark) (index : Nat) (marks : List Mark) : Prop :=
  ∃ before after, table.toList = before ++ marks ++ after ∧ before.length = index

namespace HoldsMarks

variable {table : Array Mark} {index : Nat} {m : Mark} {ms ms' : List Mark}

/-- The first of the marks stands at the index. -/
theorem head (h : HoldsMarks table index (m :: ms)) : table[index]? = some m := by
  obtain ⟨before, after, htable, rfl⟩ := h
  rw [← Array.getElem?_toList, htable, List.append_assoc,
    List.getElem?_append_right (Nat.le_refl _), Nat.sub_self]
  rfl

/-- The others stand behind it. -/
theorem tail (h : HoldsMarks table index (m :: ms)) : HoldsMarks table (index + 1) ms := by
  obtain ⟨before, after, htable, rfl⟩ := h
  refine ⟨before ++ [m], after, ?_, by simp⟩
  rw [htable]
  simp

/-- The first part of the marks stands at the index. -/
theorem left (h : HoldsMarks table index (ms ++ ms')) : HoldsMarks table index ms := by
  obtain ⟨before, after, htable, rfl⟩ := h
  refine ⟨before, ms' ++ after, ?_, rfl⟩
  rw [htable]
  simp

/-- The second part of the marks stands behind the first one. -/
theorem right (h : HoldsMarks table index (ms ++ ms')) :
    HoldsMarks table (index + ms.length) ms' := by
  obtain ⟨before, after, htable, rfl⟩ := h
  refine ⟨before ++ ms, after, ?_, by simp⟩
  rw [htable]
  simp

end HoldsMarks

/-- The marks of a tree are one for the tree, with its size, and those of the trees below. -/
theorem marks_eq_cons (rule : Expr → Bool) (e : Expr) :
    ∃ below, e.marks rule = ⟨e.foldable rule, e.size⟩ :: below := by
  obtain ⟨foldable, hhead⟩ := head_marks rule e
  have hlead := leadsFoldable_marks rule e
  cases hmarks : e.marks rule with
  | nil =>
    rw [hmarks] at hhead
    cases hhead
  | cons m below =>
    rw [hmarks] at hhead hlead
    cases hhead
    rw [← hlead]
    exact ⟨below, rfl⟩

/-! ## Both passes -/

/-- From an index on, a walk gives this answer and comes out at another index. -/
def Walks {α : Type} (walk : Folding α) (answer : Except Fault α) (index behind : Nat) : Prop :=
  walk.run index = answer.map fun a => (a, behind)

namespace Walks

variable {α β : Type} {index middle behind : Nat}

/-- A plain answer leaves the index as it is. -/
theorem pure (a : α) (index : Nat) : Walks (Pure.pure a) (Pure.pure a) index index := rfl

/-- One walk behind another. -/
theorem bind {walk : Folding α} {answer : Except Fault α} {next : α → Folding β}
    {answer' : α → Except Fault β} (h : Walks walk answer index middle)
    (hnext : ∀ a, Walks (next a) (answer' a) middle behind) :
    Walks (walk >>= next) (answer >>= answer') index behind := by
  rw [Walks, StateT.run_bind, h]
  cases answer with
  | error f => rfl
  | ok a => exact hnext a

end Walks

/-- At a tree whose marks stand in the table, the second pass replaces the tree and steps over its
marks, or goes on behind the first of them and over those of the nodes below. -/
theorem walks_visit {table : Array Mark} {index rest : Nat} {e : Expr}
    (h : HoldsMarks table index (e.marks rule)) (hsize : e.size = rest + 1)
    {inside : Folding Expr} {answer : Except Fault Expr}
    (hinside : Walks inside answer (index + 1) (index + 1 + rest)) :
    Walks (visit table e inside) (collapseOr rule e answer) index (index + e.size) := by
  obtain ⟨below, hmarks⟩ := marks_eq_cons rule e
  rw [hmarks] at h
  have hhead := h.head
  have hvisit : (visit table e inside).run index =
      if e.foldable rule then e.collapse.map fun e' => (e', index + e.size)
      else inside.run (index + 1) := by
    have hget : (get : Folding Nat).run index = pure (index, index) := rfl
    rw [visit, StateT.run_bind, hget, pure_bind, hhead]
    cases e.foldable rule <;> rfl
  rw [Walks, hvisit, collapseOr]
  split
  · rfl
  · have hbehind : index + e.size = index + 1 + rest := by omega
    rw [hbehind]
    exact hinside

mutual

/-- Where the marks of a tree stand in the table, the second pass does what one pass does and
comes out behind them. -/
theorem replaceMarked_eq {table : Array Mark} {index : Nat} {e : Expr}
    (h : HoldsMarks table index (e.marks rule)) :
    Walks (e.replaceMarked table) (e.foldInOne rule) index (index + e.size) := by
  match e with
  | row n => exact walks_visit h rfl (.pure _ _)
  | value v => exact walks_visit h rfl (.pure _ _)
  | captured name v => exact walks_visit h rfl (.pure _ _)
  | field base name ty =>
    have hbase := replaceMarked_eq (e := base) h.tail
    exact walks_visit h rfl (hbase.bind fun _ => .pure _ _)
  | not e =>
    have he := replaceMarked_eq (e := e) h.tail
    exact walks_visit h rfl (he.bind fun _ => .pure _ _)
  | cast e ty =>
    have he := replaceMarked_eq (e := e) h.tail
    exact walks_visit h rfl (he.bind fun _ => .pure _ _)
  | call none name args =>
    have hbelow : HoldsMarks table (index + 1) (marksOfList rule args).2 := h.tail
    have hargs := replaceMarkedList_eq hbelow
    exact walks_visit h rfl (hargs.bind fun _ => .pure _ _)
  | call (some target) name args =>
    have hbelow : HoldsMarks table (index + 1) (target.marks rule ++ (marksOfList rule args).2) :=
      h.tail
    have htarget := replaceMarked_eq hbelow.left
    have hargs := hbelow.right
    rw [length_marks] at hargs
    have hargs := replaceMarkedList_eq hargs
    apply walks_visit h rfl
    rw [← Nat.add_assoc]
    exact htarget.bind fun _ => hargs.bind fun _ => .pure _ _
  | binary op lhs rhs =>
    have hbelow : HoldsMarks table (index + 1) (lhs.marks rule ++ rhs.marks rule) := h.tail
    have hlhs := replaceMarked_eq hbelow.left
    have hrhs := hbelow.right
    rw [length_marks] at hrhs
    have hrhs := replaceMarked_eq hrhs
    apply walks_visit h rfl
    rw [← Nat.add_assoc]
    exact hlhs.bind fun _ => hrhs.bind fun _ => .pure _ _

/-- Where the marks of several trees stand in the table, the second pass does what one pass does
and comes out behind them. -/
theorem replaceMarkedList_eq {table : Array Mark} {index : Nat} {es : List Expr}
    (h : HoldsMarks table index (marksOfList rule es).2) :
    Walks (replaceMarkedList table es) (foldListInOne rule es) index (index + sizeOfList es) := by
  match es with
  | [] => exact .pure _ _
  | e :: rest =>
    have he := replaceMarked_eq (e := e) h.left
    have hrest := h.right
    rw [length_marks] at hrest
    have hrest := replaceMarkedList_eq hrest
    rw [sizeOfList, ← Nat.add_assoc]
    exact he.bind fun _ => hrest.bind fun _ => .pure _ _

end

/-- Folding is done in one pass. -/
theorem fold_eq (rule : Expr → Bool) (e : Expr) : e.fold rule = e.foldInOne rule := by
  have hmarks : HoldsMarks (e.marks rule).toArray 0 (e.marks rule) :=
    ⟨[], [], by simp, rfl⟩
  have hwalk := replaceMarked_eq hmarks
  rw [fold, StateT.run'_eq, hwalk]
  cases e.foldInOne rule <;> rfl

/-! ## Values -/

variable {member : String → Except Fault Value}

/-- A tree is one of its nodes. -/
theorem mem_nodes_self (e : Expr) : e ∈ e.nodes := by
  match e with
  | row _ | value _ | captured _ _ => exact List.mem_singleton_self _
  | field _ _ _ | not _ | cast _ _ | call none _ _ | call (some _) _ _ | binary _ _ _ =>
    exact List.mem_cons_self

mutual

/-- Without the row in a tree, its value is that of a constant. -/
theorem eval_of_nodes {e : Expr} (h : ∀ node ∈ e.nodes, node.isRow = false) :
    e.eval member = e.evalConst := by
  match e with
  | row n => cases h (row n) (mem_nodes_self _)
  | value _ => rfl
  | captured _ _ => rfl
  | field base name _ =>
    have hbase : base.isRow = false := h base (List.mem_cons_of_mem _ (mem_nodes_self base))
    simp only [evalConst, eval, hbase]
    rfl
  | not e =>
    have he := eval_of_nodes (e := e) fun node hnode => h node (List.mem_cons_of_mem _ hnode)
    simp only [evalConst] at he
    simp only [evalConst, eval, he]
  | cast e _ =>
    have he := eval_of_nodes (e := e) fun node hnode => h node (List.mem_cons_of_mem _ hnode)
    simp only [evalConst] at he
    simp only [evalConst, eval, he]
  | call none _ args =>
    have hargs : evalList member args = evalList noMember args :=
      evalList_of_nodes fun node hnode => h node (List.mem_cons_of_mem _ hnode)
    simp only [evalConst, eval, hargs]
  | call (some target) _ args =>
    have htarget := eval_of_nodes (e := target) fun node hnode =>
      h node (List.mem_cons_of_mem _ (List.mem_append_left _ hnode))
    have hargs : evalList member args = evalList noMember args :=
      evalList_of_nodes fun node hnode =>
        h node (List.mem_cons_of_mem _ (List.mem_append_right _ hnode))
    simp only [evalConst] at htarget
    simp only [evalConst, eval, htarget, hargs]
  | binary _ lhs rhs =>
    have hlhs := eval_of_nodes (e := lhs) fun node hnode =>
      h node (List.mem_cons_of_mem _ (List.mem_append_left _ hnode))
    have hrhs := eval_of_nodes (e := rhs) fun node hnode =>
      h node (List.mem_cons_of_mem _ (List.mem_append_right _ hnode))
    simp only [evalConst] at hlhs hrhs
    simp only [evalConst, eval, hlhs, hrhs]

/-- Without the row in several trees, their values are those of constants. -/
theorem evalList_of_nodes {es : List Expr} (h : ∀ node ∈ nodesOfList es, node.isRow = false) :
    evalList member es = evalList noMember es := by
  match es with
  | [] => rfl
  | e :: rest =>
    have he := eval_of_nodes (e := e) fun node hnode => h node (List.mem_append_left _ hnode)
    have hrest : evalList member rest = evalList noMember rest :=
      evalList_of_nodes fun node hnode => h node (List.mem_append_right _ hnode)
    simp only [evalConst] at he
    simp only [evalList, he, hrest]

end

/-- The constant that stands for a value has the value. -/
theorem eval_constant (ty : Ty) (v : Value) : (constant ty v).eval member = .ok v := by
  unfold constant
  split
  · rename_i h
    have hnull : v = .null := by
      cases v <;> first | rfl | cases h
    rw [hnull]
    exact Value.cast_null ty
  · rfl

/-- One expression stands for another: it has the same value, and is the row if the other is. -/
structure StandsFor (member : String → Except Fault Value) (e' e : Expr) : Prop where
  eval : e'.eval member = e.eval member
  isRow : e'.isRow = e.isRow

/-- The value of a tree that is admitted stands for the tree. -/
theorem standsFor_collapse {e e' : Expr} (hfoldable : e.foldable rule = true)
    (h : e.collapse = .ok e') : StandsFor member e' e := by
  have hnodes : ∀ node ∈ e.nodes, node.isRow = false := by
    intro node hnode
    have hadmitted := List.all_eq_true.1 hfoldable node hnode
    rw [Bool.and_eq_true, Bool.not_eq_true'] at hadmitted
    exact hadmitted.1
  unfold collapse at h
  split at h
  · cases h
    exact ⟨rfl, rfl⟩
  · obtain ⟨v, hv, rfl⟩ := map_eq_ok.1 h
    refine ⟨?_, ?_⟩
    · rw [eval_constant, eval_of_nodes hnodes, hv]
    · rw [hnodes e (mem_nodes_self e)]
      unfold constant
      split <;> rfl

/-- Whichever way a tree is replaced, what is left stands for the tree. -/
theorem standsFor_collapseOr {e e' : Expr} {inside : Except Fault Expr}
    (h : collapseOr rule e inside = .ok e')
    (hinside : inside = .ok e' → StandsFor member e' e) : StandsFor member e' e := by
  unfold collapseOr at h
  split at h
  · exact standsFor_collapse ‹_› h
  · exact hinside h

mutual

/-- What one pass leaves of a tree stands for the tree. -/
theorem standsFor_foldInOne {e e' : Expr} (h : e.foldInOne rule = .ok e') :
    StandsFor member e' e := by
  match e with
  | row n =>
    refine standsFor_collapseOr h fun h => ?_
    cases h
    exact ⟨rfl, rfl⟩
  | value v =>
    refine standsFor_collapseOr h fun h => ?_
    cases h
    exact ⟨rfl, rfl⟩
  | captured name v =>
    refine standsFor_collapseOr h fun h => ?_
    cases h
    exact ⟨rfl, rfl⟩
  | field base name ty =>
    refine standsFor_collapseOr h fun h => ?_
    obtain ⟨base', hbase, h⟩ := bind_eq_ok.1 h
    cases h
    have hrow := (standsFor_foldInOne hbase).isRow
    exact ⟨by simp only [Expr.eval, hrow], rfl⟩
  | not e =>
    refine standsFor_collapseOr h fun h => ?_
    obtain ⟨e₁, he, h⟩ := bind_eq_ok.1 h
    cases h
    have heval := (standsFor_foldInOne he).eval
    exact ⟨by simp only [Expr.eval, heval], rfl⟩
  | cast e ty =>
    refine standsFor_collapseOr h fun h => ?_
    obtain ⟨e₁, he, h⟩ := bind_eq_ok.1 h
    cases h
    have heval := (standsFor_foldInOne he).eval
    exact ⟨by simp only [Expr.eval, heval], rfl⟩
  | call none name args =>
    refine standsFor_collapseOr h fun h => ?_
    obtain ⟨args', hargs, h⟩ := bind_eq_ok.1 h
    cases h
    obtain ⟨heval, hlength⟩ := evalList_foldListInOne hargs
    exact ⟨by simp only [Expr.eval, heval, hlength], rfl⟩
  | call (some target) name args =>
    refine standsFor_collapseOr h fun h => ?_
    obtain ⟨target', htarget, h⟩ := bind_eq_ok.1 h
    obtain ⟨args', hargs, h⟩ := bind_eq_ok.1 h
    cases h
    have htarget := (standsFor_foldInOne htarget).eval
    obtain ⟨heval, hlength⟩ := evalList_foldListInOne hargs
    exact ⟨by simp only [Expr.eval, htarget, heval, hlength], rfl⟩
  | binary op lhs rhs =>
    refine standsFor_collapseOr h fun h => ?_
    obtain ⟨lhs', hlhs, h⟩ := bind_eq_ok.1 h
    obtain ⟨rhs', hrhs, h⟩ := bind_eq_ok.1 h
    cases h
    have hlhs := (standsFor_foldInOne hlhs).eval
    have hrhs := (standsFor_foldInOne hrhs).eval
    exact ⟨by simp only [Expr.eval, hlhs, hrhs], rfl⟩

/-- What one pass leaves of several trees has their values, and is as many. -/
theorem evalList_foldListInOne {es es' : List Expr} (h : foldListInOne rule es = .ok es') :
    evalList member es' = evalList member es ∧ es'.length = es.length := by
  match es with
  | [] =>
    cases h
    exact ⟨rfl, rfl⟩
  | e :: rest =>
    obtain ⟨e₁, he, h⟩ := bind_eq_ok.1 h
    obtain ⟨rest', hrest, h⟩ := bind_eq_ok.1 h
    cases h
    have heval := (standsFor_foldInOne he).eval
    obtain ⟨hvalues, hlength⟩ := evalList_foldListInOne hrest
    exact ⟨by simp only [evalList, heval, hvalues],
      by rw [List.length_cons, hlength, List.length_cons]⟩

end

/-- What folding leaves has the value of what was folded, for every row: both fail with the same
fault, or both have the same value. -/
theorem eval_fold {e e' : Expr} (member : String → Except Fault Value) (h : e.fold rule = .ok e') :
    e'.eval member = e.eval member := by
  rw [fold_eq] at h
  exact (standsFor_foldInOne h).eval

/-- People with a nickname or past an age. -/
def nickOrOlder (nick age : Expr) : Expr :=
  .binary (.connect .or) (.binary (.compare .eq) (.field (.row 0) "Nick" (.option .text)) nick)
    (.binary (.compare .gt) (.field (.row 0) "Age" .int32) age)

/-- A captured null keeps its optional type, and a sum becomes a constant; a row is worth the same
before and behind. -/
theorem eval_fold_nickOrOlder :
    let e := nickOrOlder (.cast (.captured "nick" .null) (.option .text))
      (.binary (.compute .add) (.value (.int32 4)) (.value (.int32 6)))
    let e' := nickOrOlder (.cast (.value .null) (.option .text)) (.value (.int32 10))
    let member := fun name => if name = "Age" then .ok (.int32 12) else .ok .null
    e.fold isLocal = .ok e' ∧ e'.eval member = e.eval member := by
  intro e e' member
  have hfold : e.fold isLocal = .ok e' := rfl
  exact ⟨hfold, eval_fold member hfold⟩

end RowQuery.Expr
