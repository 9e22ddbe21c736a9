import Mathlib.Data.List.Basic
import RowQuery.Proofs.Expr.LargestSubtrees
import RowQuery.Proofs.Sql.RecordedConstants
import RowQuery.Proofs.Sql.Renderable

/-!
# Constants in reading order

To make a term of an expression is to read the expression from left to right.  This module says what
that comes to on the nodes of the expression: the constants among them are recorded one after the
other, each once, and the placeholder of each is the number of constants in front of it.

Main results:

- Definition {lit}`Expr.readingOrder`: the constants among the nodes of an expression, without null
  and without those that a call writes out.
- Definition {lit}`Expr.occurrences`: the constants as often as they are
  written, each with its number.
- Theorem {lit}`Sql.indices_ofExpr`: a term has the numbers of these occurrences.
- Theorem {lit}`Sql.recordsReadingOrder`: all of it together, before and after folding.
-/

namespace RowQuery

open Outcome

namespace Expr

/-! ## Constants among the nodes -/

/-- The trees below a node, each with whether the node writes it out if it
is an integer constant. -/
def placedChildren : Expr → List (Bool × Expr)
  | call target method args => target.toList.map (false, ·) ++ args.map (writesArguments method, ·)
  | e => e.children.map (false, ·)

/-- The trees below a node are its children. -/
theorem map_snd_placedChildren (e : Expr) : e.placedChildren.map (·.2) = e.children := by
  rcases e with _ | _ | _ | _ | _ | _ | ⟨_ | _, _, _⟩ | _ <;>
    simp [placedChildren, children, Function.comp_def]

/-- The nodes of a tree in their order, each with whether the node above it writes it out if it
is an integer constant. -/
def placedNodes (writtenOut : Bool) (e : Expr) : List (Bool × Expr) :=
  (writtenOut, e) :: e.placedChildren.attach.flatMap fun c => placedNodes c.1.1 c.1.2
termination_by e.size
decreasing_by
  refine size_lt_of_mem_children ?_
  rw [← map_snd_placedChildren]
  exact List.mem_map_of_mem c.2

/-- The constant that a node is, unless it is null or written out. -/
def readConstant : Bool × Expr → List Value
  | (writtenOut, e) =>
    if writtenOut && e.integerConstant?.isSome then []
    else
      match e with
      | value v | captured _ v => valueConstants v
      | _ => []

/-- The constants of a tree from left to right, each once.  Left out are nulls and the integer
constants that a call writes out among its arguments. -/
def readingOrder (e : Expr) : List Value :=
  (e.placedNodes false).flatMap readConstant

/-- The node is a static call with a target, which is left alone. -/
def targetsStatic : Expr → Bool
  | call (some _) method _ => callsStatic method
  | _ => false

/-- The nodes of a tree are the node and those of the trees below it. -/
theorem placedNodes_eq (writtenOut : Bool) (e : Expr) :
    placedNodes writtenOut e =
      (writtenOut, e) :: e.placedChildren.flatMap fun c => placedNodes c.1 c.2 := by
  conv_rhs => rw [← List.attach_map_subtype_val e.placedChildren, List.flatMap_map]
  rw [placedNodes]

/-- The constants of arguments are those of each of them. -/
theorem argumentConstants_eq_flatMap (again writtenOut : Bool) (args : List Expr) :
    argumentConstants again writtenOut args =
      args.flatMap fun c => if writtenOut && c.integerConstant?.isSome then []
        else c.constants again := by
  induction args with
  | nil => rfl
  | cons c rest ih => rw [argumentConstants, ih, List.flatMap_cons]

/-- What a tree records is what is read at the node, and what the trees below it record. -/
theorem recorded_eq {e : Expr} (h : e.targetsStatic = false) :
    e.recorded = readConstant (false, e) ++ e.placedChildren.flatMap fun c =>
      if c.1 && c.2.integerConstant?.isSome then [] else c.2.recorded := by
  rcases e with _ | _ | _ | _ | _ | _ | ⟨_ | target, method, args⟩ | _
  case row | value | captured | field | not | cast | binary =>
    simp [constants, readConstant, placedChildren, children]
  case call.none =>
    simp [constants, readConstant, placedChildren, repeated, argumentConstants_eq_flatMap,
      List.flatMap_map]
  case call.some =>
    have hstatic : callsStatic method = false := h
    simp [constants, readConstant, placedChildren, repeated, argumentConstants_eq_flatMap,
      List.flatMap_map, hstatic]

/-- An integer constant has no trees below it. -/
theorem placedChildren_of_integerConstant {e : Expr} (h : e.integerConstant?.isSome = true) :
    e.placedChildren = [] := by
  cases e with
  | value v => rfl
  | _ => cases h

/-- What is read at the nodes of a tree is what the tree records, or nothing
if it is written out. -/
theorem flatMap_readConstant (writtenOut : Bool) {e : Expr}
    (h : ∀ node ∈ e.nodes, node.targetsStatic = false) :
    (placedNodes writtenOut e).flatMap readConstant =
      if writtenOut && e.integerConstant?.isSome then [] else e.recorded := by
  induction e using childrenInduction generalizing writtenOut with
  | node e ih =>
    have hbelow (c : Bool × Expr) (hc : c ∈ e.placedChildren) :
        (placedNodes c.1 c.2).flatMap readConstant =
          if c.1 && c.2.integerConstant?.isSome then [] else c.2.recorded := by
      have hchild : c.2 ∈ e.children := by
        rw [← map_snd_placedChildren]
        exact List.mem_map_of_mem hc
      exact ih c.2 hchild c.1 fun node hnode => h node (mem_nodes_of_mem_children hchild hnode)
    rw [placedNodes_eq, List.flatMap_cons, List.flatMap_assoc, List.flatMap_congr hbelow]
    cases hout : writtenOut && e.integerConstant?.isSome with
    | true =>
      rw [placedChildren_of_integerConstant (Bool.and_eq_true_iff.1 hout).2]
      simp [readConstant, hout]
    | false =>
      rw [if_neg Bool.false_ne_true, recorded_eq (h e (mem_nodes_self e))]
      simp [readConstant, hout]

/-- Without targets of static calls, a tree records its constants in reading order. -/
theorem readingOrder_eq {e : Expr} (h : ∀ node ∈ e.nodes, node.targetsStatic = false) :
    e.readingOrder = e.recorded := by
  rw [readingOrder, flatMap_readConstant false h]
  rfl

/-! ## Occurrences -/

/-- Occurrences, a second time behind themselves if asked for. -/
def repeatedOccurrences (again : Bool) (os : List (Value × Nat)) : List (Value × Nat) :=
  if again then os ++ os else os

mutual

/-- The constants of a tree as often as they are written, each with its number, where the first one
has the number that is given.  What a static call is about is written twice. -/
def occurrences (start : Nat) : Expr → List (Value × Nat)
  | row _ => []
  | value v => (valueConstants v).zipIdx start
  | captured _ v => (valueConstants v).zipIdx start
  | field base _ _ => occurrences start base
  | not e => occurrences start e
  | cast e _ => occurrences start e
  | call none method args =>
    repeatedOccurrences (callsStatic method)
      (argumentOccurrences start (writesArguments method) args)
  | call (some target) method args =>
    if callsStatic method then
      repeatedOccurrences true (argumentOccurrences start (writesArguments method) args)
    else
      occurrences start target ++
        argumentOccurrences (start + target.recorded.length) (writesArguments method) args
  | binary _ lhs rhs => occurrences start lhs ++ occurrences (start + lhs.recorded.length) rhs

/-- The constants of arguments as often as they are written, each with its number. -/
def argumentOccurrences (start : Nat) (writtenOut : Bool) : List Expr → List (Value × Nat)
  | [] => []
  | e :: rest =>
    if writtenOut && e.integerConstant?.isSome then argumentOccurrences start writtenOut rest
    else occurrences start e ++ argumentOccurrences (start + e.recorded.length) writtenOut rest

end

/-- The occurrences, each counted once, are the values with consecutive numbers. -/
def NumbersInTurn (start : Nat) (vs : List Value) (occurrences : List (Value × Nat)) : Prop :=
  occurrences.eraseDups = vs.zipIdx start

namespace NumbersInTurn

variable {start : Nat} {vs vs' : List Value} {os os' : List (Value × Nat)}

/-- No occurrence. -/
theorem nil (start : Nat) : NumbersInTurn start [] [] := rfl

/-- A constant that occurs once. -/
theorem single (start : Nat) (v : Value) :
    NumbersInTurn start (valueConstants v) ((valueConstants v).zipIdx start) := by
  unfold valueConstants
  split <;> rfl

/-- The numbers of the occurrences are those of the values. -/
theorem snd_mem (h : NumbersInTurn start vs os) {o : Value × Nat} (ho : o ∈ os) :
    start ≤ o.2 ∧ o.2 < start + vs.length := by
  rw [← List.mem_eraseDups, h] at ho
  rcases List.mem_zipIdx ho with ⟨hle, hlt, _⟩
  exact ⟨hle, hlt⟩

/-- Occurrences of other values behind these. -/
theorem append (h : NumbersInTurn start vs os) (h' : NumbersInTurn (start + vs.length) vs' os') :
    NumbersInTurn start (vs ++ vs') (os ++ os') := by
  have hnew : os'.removeAll os = os' := by
    refine List.filter_eq_self.2 fun o ho => ?_
    rw [Bool.not_eq_true', List.elem_eq_mem, decide_eq_false_iff_not]
    intro hold
    have hlt := (h.snd_mem hold).2
    have hle := (h'.snd_mem ho).1
    omega
  rw [NumbersInTurn, List.eraseDups_append, hnew, h, h', List.zipIdx_append]

/-- The same occurrences a second time. -/
theorem again (h : NumbersInTurn start vs os) : NumbersInTurn start vs (os ++ os) := by
  have hold : os.removeAll os = [] := by
    refine List.filter_eq_nil_iff.2 fun o ho => ?_
    simpa using ho
  rw [NumbersInTurn, List.eraseDups_append, hold, h, List.eraseDups_nil, List.append_nil]

end NumbersInTurn

mutual

/-- The constants that a tree records have consecutive numbers where they occur. -/
theorem numbersInTurn_occurrences (start : Nat) (e : Expr) :
    NumbersInTurn start e.recorded (e.occurrences start) := by
  match e with
  | row _ => exact .nil start
  | value v | captured _ v =>
    rw [recorded, constants, occurrences]
    exact .single start v
  | field e _ _ | not e | cast e _ =>
    rw [recorded, constants, occurrences]
    exact numbersInTurn_occurrences start e
  | call none method args =>
    have hargs := numbersInTurn_argumentOccurrences start (writesArguments method) args
    simp only [recorded, constants, occurrences, repeated, repeatedOccurrences, Bool.false_and]
    cases callsStatic method with
    | true => exact hargs.again
    | false => exact hargs
  | call (some target) method args =>
    simp only [recorded, constants, occurrences, repeated, repeatedOccurrences, Bool.false_and]
    cases callsStatic method with
    | true => exact (numbersInTurn_argumentOccurrences start (writesArguments method) args).again
    | false =>
      exact (numbersInTurn_occurrences start target).append
        (numbersInTurn_argumentOccurrences _ (writesArguments method) args)
  | binary _ lhs rhs =>
    rw [recorded, constants, occurrences]
    exact (numbersInTurn_occurrences start lhs).append (numbersInTurn_occurrences _ rhs)

/-- The constants that arguments record have consecutive numbers where they occur. -/
theorem numbersInTurn_argumentOccurrences (start : Nat) (writtenOut : Bool) (args : List Expr) :
    NumbersInTurn start (argumentConstants false writtenOut args)
      (argumentOccurrences start writtenOut args) := by
  match args with
  | [] => exact .nil start
  | e :: rest =>
    rw [argumentConstants, argumentOccurrences]
    cases writtenOut && e.integerConstant?.isSome with
    | true => exact numbersInTurn_argumentOccurrences start writtenOut rest
    | false =>
      exact (numbersInTurn_occurrences start e).append
        (numbersInTurn_argumentOccurrences _ writtenOut rest)

end

/-- Null does not occur, whatever it is converted to. -/
theorem occurrences_of_isNullConstant {e : Expr} (h : e.isNullConstant = true) (start : Nat) :
    e.occurrences start = [] := by
  match e with
  | value v | captured _ v =>
    rw [isNullConstant] at h
    rw [occurrences, valueConstants, if_pos h, List.zipIdx_nil]
  | cast e _ =>
    rw [occurrences]
    exact occurrences_of_isNullConstant (by simpa [isNullConstant] using h) start

end Expr

namespace Sql

/-! ## Numbers of a term -/

/-- The placeholder of a constant has the number of constants in front of it. -/
theorem indices_ofValue {v : Value} {t : Term} {before after : List Value}
    (h : (Term.ofValue v).run before = .ok (t, after)) :
    t.indices = ((Expr.valueConstants v).zipIdx before.length).map (·.2) := by
  unfold Term.ofValue at h
  by_cases hnull : v.isNull = true
  · rw [if_pos hnull, run_pure_eq_ok] at h
    rcases h with ⟨rfl, rfl⟩
    rw [Expr.valueConstants, if_pos hnull]
    rfl
  · rw [if_neg hnull] at h
    cases h
    rw [Expr.valueConstants, if_neg hnull]
    rfl

/-- The placeholders of the argument of a static call are written twice. -/
theorem indices_static {m : Method} {t : Term} {args : List Term} (h : m.staticTerm args = .ok t) :
    t.indices = args.flatMap Term.indices ++ args.flatMap Term.indices := by
  rcases eq_of_staticTerm h with ⟨subject, rfl, rfl⟩
  rw [List.flatMap_singleton]
  rfl

/-- What is recorded behind others comes after them. -/
theorem Trace.length_eq {table : Table} {recorded written before after : List Value}
    {indices : List Nat} {columns : List String}
    (h : Trace table recorded written before indices columns after) :
    after.length = before.length + recorded.length := by
  rw [h.after_eq, List.length_append]

mutual

/-- The placeholders of a term have the numbers of the occurrences of
constants in the expression. -/
theorem indices_ofExpr {table : Table} {e : Expr} {t : Term} {before after : List Value}
    (h : (Term.ofExpr table e).run before = .ok (t, after)) :
    t.indices = (e.occurrences before.length).map (·.2) := by
  match e with
  | .row _ => exact absurd h run_throw_ne_ok
  | .value v | .captured _ v =>
    rw [Expr.occurrences]
    exact indices_ofValue h
  | .field base name ty =>
    rcases trace_ofMember h with ⟨hrow, htrace⟩
    cases base with
    | row _ =>
      rw [List.map_eq_nil_iff.1 htrace.reads]
      rfl
    | _ => cases hrow
  | .not e =>
    simp only [Term.ofExpr, run_bind_eq_ok, run_pure_eq_ok] at h
    rcases h with ⟨t', _, he, rfl, rfl⟩
    rw [Term.indices, indices_asCondition, Expr.occurrences]
    exact indices_ofExpr he
  | .cast e _ =>
    rw [Expr.occurrences]
    exact indices_ofExpr (e := e) h
  | .call none name args =>
    simp only [Term.ofExpr, run_bind_eq_ok, run_lift_eq_ok, resolveInQuery_eq_ok] at h
    rcases h with ⟨m, _, ⟨⟨hm, _⟩, rfl⟩, h⟩
    split at h
    · rename_i hstatic
      simp only [run_bind_eq_ok, run_lift_eq_ok] at h
      rcases h with ⟨ts, _, hargs, ht, rfl⟩
      rw [indices_static ht, indices_ofArguments hargs, Expr.occurrences,
        Expr.callsStatic_of_ofName? hm, hstatic, Expr.writesArguments_of_ofName? hm]
      exact List.map_append.symm
    · exact absurd h run_throw_ne_ok
  | .call (some target) name args =>
    simp only [Term.ofExpr, run_bind_eq_ok, run_lift_eq_ok, resolveInQuery_eq_ok] at h
    rcases h with ⟨m, _, ⟨⟨hm, _⟩, rfl⟩, h⟩
    split at h
    · rename_i hstatic
      simp only [run_bind_eq_ok, run_lift_eq_ok] at h
      rcases h with ⟨ts, _, hargs, ht, rfl⟩
      rw [indices_static ht, indices_ofArguments hargs, Expr.occurrences,
        Expr.callsStatic_of_ofName? hm, hstatic, Expr.writesArguments_of_ofName? hm]
      exact List.map_append.symm
    · rename_i hstatic
      simp only [run_bind_eq_ok, run_lift_eq_ok] at h
      rcases h with ⟨t', _, htarget, ts, _, hargs, ht, rfl⟩
      have hbelow := indices_ofArguments hargs
      rw [(trace_ofExpr htarget).length_eq] at hbelow
      rw [indices_method ht, indices_ofExpr htarget, hbelow, Expr.occurrences,
        Expr.callsStatic_of_ofName? hm, Bool.eq_false_iff.2 hstatic,
        Expr.writesArguments_of_ofName? hm]
      exact List.map_append.symm
  | .binary op lhs rhs =>
    simp only [Term.ofExpr] at h
    split at h
    · rename_i hnull
      simp only [run_bind_eq_ok, run_pure_eq_ok] at h
      rcases h with ⟨t', _, hlhs, rfl, rfl⟩
      rw [Expr.occurrences, Expr.occurrences_of_isNullConstant hnull, List.append_nil]
      exact (indices_ofExpr hlhs : t'.indices = _)
    · rename_i hnull
      simp only [run_bind_eq_ok, run_pure_eq_ok] at h
      rcases h with ⟨t', _, hrhs, rfl, rfl⟩
      rw [Expr.occurrences, Expr.occurrences_of_isNullConstant hnull, Expr.recorded,
        Expr.constants_of_isNullConstant hnull]
      exact (indices_ofExpr hrhs : t'.indices = _)
    · simp only [run_bind_eq_ok] at h
      rcases h with ⟨left, _, hlhs, right, _, hrhs, h⟩
      have hleft := indices_ofExpr hlhs
      have hright := indices_ofExpr hrhs
      rw [(trace_ofExpr hlhs).length_eq] at hright
      rw [Expr.occurrences, List.map_append, ← hleft, ← hright]
      split at h
      · rcases run_pure_eq_ok.1 h with ⟨rfl, rfl⟩
        rw [Term.indices, indices_asCondition, indices_asCondition]
      · rcases run_pure_eq_ok.1 h with ⟨rfl, rfl⟩
        rfl

/-- The placeholders of the terms of arguments have the numbers of the occurrences of
constants in the arguments. -/
theorem indices_ofArguments {table : Table} {writtenOut : Bool} {args : List Expr} {ts : List Term}
    {before after : List Value}
    (h : (Term.ofArguments table writtenOut args).run before = .ok (ts, after)) :
    ts.flatMap Term.indices =
      (Expr.argumentOccurrences before.length writtenOut args).map (·.2) := by
  match args with
  | [] =>
    rcases run_pure_eq_ok.1 h with ⟨rfl, rfl⟩
    rfl
  | e :: rest =>
    simp only [Term.ofArguments] at h
    split at h
    · rename_i n hn
      simp only [run_bind_eq_ok, run_pure_eq_ok] at h
      rcases h with ⟨t, _, ⟨rfl, rfl⟩, ts', _, hrest, rfl, rfl⟩
      rw [Expr.argumentOccurrences, hn]
      exact (indices_ofArguments hrest : ts'.flatMap Term.indices = _)
    · rename_i writtenOut _ _ hn
      simp only [run_bind_eq_ok, run_pure_eq_ok] at h
      rcases h with ⟨t, _, he, ts', _, hrest, rfl, rfl⟩
      have hout := Expr.eq_false_of_notWritten hn
      have hbelow := indices_ofArguments hrest
      rw [(trace_ofExpr he).length_eq] at hbelow
      rw [List.flatMap_cons, indices_ofExpr he, hbelow, Expr.argumentOccurrences, hout]
      exact List.map_append.symm

end

end Sql

namespace Expr

/-! ## Before and after folding -/

variable {rule : Expr → Bool}

/-- Whether a static call has a target does not depend on what is below it. -/
@[simp]
theorem targetsStatic_withChildren (e : Expr) (cs : List Expr) :
    (e.withChildren cs).targetsStatic = e.targetsStatic := by
  unfold withChildren
  split <;> rfl

/-- A constant that stands for a tree has no static calls but those of the tree. -/
theorem targetsStatic_of_mem_settled {e node : Expr}
    (h : ∀ node ∈ e.nodes, node.targetsStatic = false) (hnode : node ∈ e.settled.nodes) :
    node.targetsStatic = false := by
  unfold settled at hnode
  split at hnode
  · unfold constant at hnode
    split at hnode
    · rcases List.mem_pair.1 hnode with rfl | rfl <;> rfl
    · cases List.mem_singleton.1 hnode
      rfl
  · exact h node hnode

/-- Replacing largest subtrees by constants gives no static call a target. -/
theorem targetsStatic_of_mem_replaceLargest {e node : Expr}
    (h : ∀ node ∈ e.nodes, node.targetsStatic = false)
    (hnode : node ∈ (e.replaceLargest rule settled).nodes) : node.targetsStatic = false := by
  induction e using childrenInduction generalizing node with
  | node e ih =>
    rw [replaceLargest_eq] at hnode
    split at hnode
    · exact targetsStatic_of_mem_settled h hnode
    · rw [nodes_eq, nodesOfList_eq_flatMap, children_withChildren (List.length_map _)] at hnode
      rcases List.mem_cons.1 hnode with rfl | hnode
      · rw [targetsStatic_withChildren]
        exact h e (mem_nodes_self e)
      · rw [List.flatMap_map] at hnode
        rcases List.mem_flatMap.1 hnode with ⟨c, hc, hnode⟩
        exact ih c hc (fun node hnode => h node (mem_nodes_of_mem_children hc hnode)) hnode

/-- Folding gives no static call a target. -/
theorem targetsStatic_of_mem_fold {e e' node : Expr}
    (h : ∀ node ∈ e.nodes, node.targetsStatic = false) (hfold : e.fold rule = .ok e')
    (hnode : node ∈ e'.nodes) : node.targetsStatic = false := by
  rw [fold_eq, foldInOne_largest, orFault_eq_ok] at hfold
  rcases hfold with ⟨_, rfl⟩
  exact targetsStatic_of_mem_replaceLargest h hnode

end Expr

namespace Sql

/-! ## The whole -/

/-- What a term that is made of an expression behind other constants has to do with the
constants of the expression. -/
structure InReadingOrder (table : Table) (e : Expr) (before : List Value) (t : Term)
    (after : List Value) : Prop where
  /-- The constants come behind the others in the order in which they are read. -/
  recorded : after = before ++ e.readingOrder
  /-- Their numbers, as far as each first occurs, count on from the constants in front. -/
  numbered : (e.occurrences before.length).eraseDups = e.readingOrder.zipIdx before.length
  /-- The placeholders of the term are those of the occurrences. -/
  written : t.indices = (e.occurrences before.length).map (·.2)
  /-- They are found in the text of the term. -/
  printed : (∀ c ∈ table.columns, Quiet c.name) →
    placeholders t.text = (e.occurrences before.length).map fun o => Term.placeholder o.2

/-- An expression is read from left to right, behind any constants, wherever it has a term. -/
structure RecordsReadingOrder (table : Table) (e : Expr) : Prop where
  /-- As a term. -/
  term : ∀ {before after : List Value} {t : Term},
    (Term.ofExpr table e).run before = .ok (t, after) → InReadingOrder table e before t after
  /-- As a condition. -/
  condition : ∀ {before after : List Value} {t : Term},
    (Term.ofCondition table e).run before = .ok (t, after) → InReadingOrder table e before t after
  /-- A static call writes its subject twice and records the constants of the subject once. -/
  subject : ∀ {before after : List Value} {t : Term} {target : Option Expr} {method : String}
    {args : List Expr}, e = .call target method args → Expr.callsStatic method = true →
    (Term.ofExpr table e).run before = .ok (t, after) →
    ∃ subject s, args = [subject] ∧ (Term.ofExpr table subject).run before = .ok (s, after) ∧
      t.text = "(" ++ s.text ++ " IS NULL OR " ++ s.text ++ " = '')"

/-- A trace of an expression, together with the numbers of its placeholders. -/
theorem inReadingOrder_of_trace {table : Table} {e : Expr} {before after : List Value} {t : Term}
    (h : ∀ node ∈ e.nodes, node.targetsStatic = false)
    (htrace : Trace table e.recorded e.written before t.indices t.columns after)
    (hindices : t.indices = (e.occurrences before.length).map (·.2)) :
    InReadingOrder table e before t after where
  recorded := by rw [Expr.readingOrder_eq h, htrace.after_eq]
  numbered := by
    rw [Expr.readingOrder_eq h]
    exact Expr.numbersInTurn_occurrences before.length e
  written := hindices
  printed hquiet := by
    have hcolumns : ∀ c ∈ t.columns, Quiet c := by
      intro c hc
      rcases List.mem_map.1 (htrace.columns_mem c hc) with ⟨column, hcolumn, rfl⟩
      exact hquiet column hcolumn
    rw [(Term.scans_text hcolumns).placeholders_eq, Term.names, hindices, List.map_map]
    rfl

/-- A static call takes the terms of its arguments, and leaves a target alone. -/
theorem run_static {table : Table} {target : Option Expr} {method : String} {args : List Expr}
    {t : Term} {before after : List Value} (hstatic : Expr.callsStatic method = true)
    (h : (Term.ofExpr table (.call target method args)).run before = .ok (t, after)) :
    args.length = 1 ∧ ∃ ts, (Term.ofArguments table false args).run before = .ok (ts, after) ∧
      Method.isNullOrEmpty.staticTerm ts = .ok t := by
  have hrun : ∃ m, Method.ofName? method = some m ∧ m.accepts args.length = true ∧
      ∃ ts, (Term.ofArguments table m.writesIntegers args).run before = .ok (ts, after) ∧
        m.staticTerm ts = .ok t := by
    cases target <;>
    · simp only [Term.ofExpr, run_bind_eq_ok, run_lift_eq_ok, resolveInQuery_eq_ok] at h
      rcases h with ⟨m, _, ⟨⟨hm, haccepts⟩, rfl⟩, h⟩
      rw [Expr.callsStatic_of_ofName? hm] at hstatic
      rw [if_pos hstatic] at h
      simp only [run_bind_eq_ok, run_lift_eq_ok] at h
      rcases h with ⟨ts, _, hargs, ht, rfl⟩
      exact ⟨m, hm, haccepts, ts, hargs, ht⟩
  rcases hrun with ⟨m, hm, haccepts, ts, hargs, ht⟩
  rw [Expr.callsStatic_of_ofName? hm, Method.isStatic, decide_eq_true_iff] at hstatic
  subst hstatic
  have hlength : 1 ≤ args.length ∧ args.length ≤ 1 := accepts_iff.1 haccepts
  exact ⟨by omega, ts, hargs, ht⟩

/-- The term of a static call is that of its subject, written twice. -/
theorem subject_of_static {table : Table} {target : Option Expr} {method : String}
    {args : List Expr} {t : Term} {before after : List Value}
    (hstatic : Expr.callsStatic method = true)
    (h : (Term.ofExpr table (.call target method args)).run before = .ok (t, after)) :
    ∃ subject s, args = [subject] ∧ (Term.ofExpr table subject).run before = .ok (s, after) ∧
      t = .nullOrEmpty s := by
  rcases run_static hstatic h with ⟨hlength, ts, hargs, ht⟩
  rcases List.length_eq_one_iff.1 hlength with ⟨subject, rfl⟩
  simp only [Term.ofArguments, run_bind_eq_ok, run_pure_eq_ok] at hargs
  rcases hargs with ⟨s, _, hsubject, _, _, ⟨rfl, rfl⟩, rfl, rfl⟩
  cases ht
  exact ⟨subject, s, rfl, hsubject, rfl⟩

/-- In an expression whose static calls have no target, constants are recorded in reading order,
whether it has been folded or not. -/
theorem recordsReadingOrder {e : Expr} (h : ∀ node ∈ e.nodes, node.targetsStatic = false)
    (table : Table) :
    RecordsReadingOrder table e ∧
      ∀ rule e', e.fold rule = .ok e' → RecordsReadingOrder table e' := by
  have hany : ∀ e : Expr, (∀ node ∈ e.nodes, node.targetsStatic = false) →
      RecordsReadingOrder table e := by
    intro e h
    refine ⟨?_, ?_, ?_⟩
    · intro before after t hrun
      exact inReadingOrder_of_trace h (trace_ofExpr hrun) (indices_ofExpr hrun)
    · intro before after t hrun
      have htrace := trace_ofCondition hrun
      simp only [Term.ofCondition, run_bind_eq_ok, run_pure_eq_ok] at hrun
      rcases hrun with ⟨t', _, he, rfl, rfl⟩
      refine inReadingOrder_of_trace h htrace ?_
      rw [indices_asCondition]
      exact indices_ofExpr he
    · rintro before after t target method args rfl hstatic hrun
      rcases subject_of_static hstatic hrun with ⟨subject, s, hargs, hsubject, rfl⟩
      exact ⟨subject, s, hargs, hsubject, rfl⟩
  refine ⟨hany e h, ?_⟩
  intro rule e' hfold
  exact hany e' fun node => Expr.targetsStatic_of_mem_fold h hfold

/-- People with a name and perhaps a nickname. -/
def nicknamed : Table :=
  ⟨"People", [⟨"Name", "Name", .text, none, none, .application⟩,
    ⟨"Nick", "Nick", .option .text, none, none, .application⟩]⟩

/-- People with a piece in their name, or whose nickname has nothing but one letter. -/
def pieceOrLetters : Expr :=
  .binary (.connect .or)
    (.binary (.compare .eq)
      (.call (some (.field (.row 0) "Name" .text)) "Substring"
        [.value (.int32 1), .captured "length" (.int32 2)])
      (.value (.text "da")))
    (.call none "IsNullOrEmpty"
      [.call (some (.field (.row 0) "Nick" (.option .text))) "Replace"
        [.value (.text "x"), .value (.text "")]])

/-- The start of the piece is written out, and what is left of the nickname is written twice. -/
theorem recordsReadingOrder_pieceOrLetters :
    (∀ node ∈ pieceOrLetters.nodes, node.targetsStatic = false) ∧
      RecordsReadingOrder nicknamed pieceOrLetters ∧
      (Term.ofCondition nicknamed pieceOrLetters).run [.int32 7] = .ok
        (.operation (.connect .or)
          (.operation (.compare .eq) (.piece (.column "Name") (.integer 1) (.parameter 1))
            (.parameter 2))
          (.nullOrEmpty (.replaced (.column "Nick") (.parameter 3) (.parameter 4))),
        [.int32 7, .int32 2, .text "da", .text "x", .text ""]) := by
  have hbare : ∀ node ∈ pieceOrLetters.nodes, node.targetsStatic = false := by decide +kernel
  exact ⟨hbare, (recordsReadingOrder hbare nicknamed).1, rfl⟩

end Sql

end RowQuery
