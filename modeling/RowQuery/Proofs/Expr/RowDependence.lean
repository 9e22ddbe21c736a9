import RowQuery.Proofs.Expr.Calls
import RowQuery.Proofs.Expr.Frames
import RowQuery.Proofs.Sql.ReadingOrder

/-!
# Expressions that depend on the row

An expression that holds the row or a member has no value of its own: evaluation comes to
each node, and fails there.  The one place that it does not come to is the target of a static
call, which is left alone.

Main results:

- Theorem {lit}`exists_error_of_mem_children`: a node fails when a tree below it does, unless it is
  a static call with a target.
- Definition {lit}`withoutIgnored`: an expression without the targets that are left alone.  By
  theorem {lit}`eval_withoutIgnored` it has the same value.
- Theorem {lit}`exists_error_of_dependsOnRow`: when the row or a member is left
  in it, there is no value.
- Theorem {lit}`refusesRow_iff`: the expressions that are refused for the row or
  a member that they hold.
- Theorem {lit}`not_refusesRow_emptyOfRow`: a static call on the row that has a value.
-/

namespace RowQuery.Expr

open Outcome

/-! ## The row and members -/

/-- The row or a member of something occurs in the tree. -/
def dependsOnRow (e : Expr) : Bool :=
  e.nodes.any fun node => node.isRow || node.isField

/-- The tree depends on the row if the node does or a tree below it. -/
theorem dependsOnRow_eq (e : Expr) :
    e.dependsOnRow = (e.isRow || e.isField || e.children.any dependsOnRow) := by
  rw [dependsOnRow, nodes_eq, List.any_cons, nodesOfList_eq_flatMap, List.any_flatMap]
  rfl

/-- The row occurs in a tree if it is one of the nodes. -/
theorem mentionsRow_eq_any_nodes (e : Expr) : e.mentionsRow = e.nodes.any isRow := by
  induction e using childrenInduction with
  | node e ih =>
    rw [mentionsRow_eq, nodes_eq, List.any_cons, nodesOfList_eq_flatMap, List.any_flatMap]
    congr 1
    rw [Bool.eq_iff_iff, List.any_eq_true, List.any_eq_true]
    exact exists_congr fun c => and_congr_right fun hc => by rw [ih c hc]

/-- A tree depends on the row if the row occurs in it, or a member. -/
theorem dependsOnRow_iff {e : Expr} :
    e.dependsOnRow = true ↔ e.mentionsRow = true ∨ ∃ node ∈ e.nodes, node.isField = true := by
  rw [mentionsRow_eq_any_nodes, dependsOnRow, List.any_eq_true, List.any_eq_true]
  simp only [Bool.or_eq_true, and_or_left, exists_or]

/-! ## Faults from below -/

variable {member : String → Except Fault Value}

/-- Several trees have no values when one of them has none. -/
theorem exists_error_of_mem {es : List Expr} {c : Expr} (hc : c ∈ es)
    (h : ∃ f, c.eval member = .error f) : ∃ f, evalList member es = .error f := by
  induction es with
  | nil => cases hc
  | cons e rest ih =>
    rw [evalList]
    refine exists_bind_eq_error fun v hv => ?_
    rcases List.mem_cons.1 hc with rfl | hc
    · obtain ⟨f, hf⟩ := h
      rw [hf] at hv
      cases hv
    · obtain ⟨f, hf⟩ := ih hc
      exact ⟨f, bind_eq_error hf _⟩

/-- The row and a member have no value. -/
theorem exists_error_of_isRow_or_isField {e : Expr} (h : (e.isRow || e.isField) = true) :
    ∃ f, e.evalConst = .error f := by
  cases e with
  | row n => exact ⟨_, rfl⟩
  | field base name ty =>
    rw [evalConst, eval]
    cases base.isRow with
    | true => exact ⟨_, rfl⟩
    | false => exact ⟨_, rfl⟩
  | _ => cases h

/-- A node has no value when a tree below it has none, unless it is a static call with a target. -/
theorem exists_error_of_mem_children {e c : Expr} (htarget : e.targetsStatic = false)
    (hc : c ∈ e.children) (h : ∃ f, c.evalConst = .error f) : ∃ f, e.evalConst = .error f := by
  rcases e with _ | _ | _ | ⟨base, name, ty⟩ | e | ⟨e, ty⟩ | ⟨_ | target, name, args⟩ |
    ⟨op, lhs, rhs⟩
  case row | value | captured => cases hc
  case field => exact exists_error_of_isRow_or_isField rfl
  case not | cast =>
    obtain rfl := List.mem_singleton.1 hc
    obtain ⟨f, hf⟩ := h
    exact ⟨f, bind_eq_error hf _⟩
  case binary =>
    obtain ⟨f, hf⟩ := h
    rw [evalConst, eval]
    rcases List.mem_cons.1 hc with rfl | hc
    · exact ⟨f, bind_eq_error hf _⟩
    · obtain rfl := List.mem_singleton.1 hc
      exact exists_bind_eq_error fun a _ => ⟨f, bind_eq_error hf _⟩
  case call.none =>
    rw [evalConst, eval]
    refine exists_bind_eq_error fun m _ => ?_
    obtain ⟨f, hf⟩ := exists_error_of_mem hc h
    exact ⟨f, bind_eq_error hf _⟩
  case call.some =>
    rw [evalConst, eval]
    refine exists_bind_eq_error fun m hm => ?_
    have hstatic : m.isStatic = false := by
      rw [← callsStatic_of_ofName? (Method.resolve_eq_ok.1 hm).1]
      exact htarget
    rcases List.mem_cons.1 hc with rfl | hc
    · obtain ⟨f, hf⟩ := h
      refine exists_bind_eq_error fun values _ => ?_
      rw [hstatic]
      exact ⟨f, bind_eq_error hf _⟩
    · obtain ⟨f, hf⟩ := exists_error_of_mem hc h
      exact ⟨f, bind_eq_error hf _⟩

/-! ## What evaluation does not come to -/

mutual

/-- The expression without the targets of static calls, which evaluation leaves alone. -/
def withoutIgnored : Expr → Expr
  | row n => row n
  | value v => value v
  | captured name v => captured name v
  | field base name ty => field (withoutIgnored base) name ty
  | not e => not (withoutIgnored e)
  | cast e ty => cast (withoutIgnored e) ty
  | call none method args => call none method (withoutIgnoredOfList args)
  | call (some target) method args =>
    if callsStatic method then call none method (withoutIgnoredOfList args)
    else call (some (withoutIgnored target)) method (withoutIgnoredOfList args)
  | binary op lhs rhs => binary op (withoutIgnored lhs) (withoutIgnored rhs)

/-- Several expressions without the targets of static calls. -/
def withoutIgnoredOfList : List Expr → List Expr
  | [] => []
  | e :: rest => withoutIgnored e :: withoutIgnoredOfList rest

end

/-- Nothing is left out of a list but inside of its expressions. -/
theorem withoutIgnoredOfList_eq_map (es : List Expr) :
    withoutIgnoredOfList es = es.map withoutIgnored := by
  induction es with
  | nil => rfl
  | cons e rest ih => rw [withoutIgnoredOfList, ih, List.map_cons]

/-- What is left of the row is the row, and of anything else not. -/
@[simp]
theorem isRow_withoutIgnored (e : Expr) : e.withoutIgnored.isRow = e.isRow := by
  rcases e with _ | _ | _ | _ | _ | _ | ⟨_ | target, method, args⟩ | _
  case call.some =>
    rw [withoutIgnored]
    split <;> rfl
  all_goals rfl

/-- No static call with a target is left. -/
theorem targetsStatic_withoutIgnored (e : Expr) : e.withoutIgnored.targetsStatic = false := by
  rcases e with _ | _ | _ | _ | _ | _ | ⟨_ | target, method, args⟩ | _
  case call.some =>
    rw [withoutIgnored]
    split
    · rfl
    · rename_i hstatic
      exact Bool.eq_false_iff.2 hstatic
  all_goals rfl

/-- What is left below a node is what is left of trees below it. -/
theorem exists_mem_children_of_withoutIgnored {e d : Expr} (hd : d ∈ e.withoutIgnored.children) :
    ∃ c ∈ e.children, c.withoutIgnored = d := by
  rcases e with _ | _ | _ | _ | _ | _ | ⟨_ | target, method, args⟩ | _
  case row | value | captured => cases hd
  case field | not | cast => exact ⟨_, List.mem_singleton_self _, (List.mem_singleton.1 hd).symm⟩
  case binary =>
    rcases List.mem_cons.1 hd with rfl | hd
    · exact ⟨_, List.mem_cons_self, rfl⟩
    · exact ⟨_, List.mem_cons_of_mem _ (List.mem_singleton_self _), (List.mem_singleton.1 hd).symm⟩
  case call.none =>
    rw [withoutIgnored, withoutIgnoredOfList_eq_map] at hd
    exact List.mem_map.1 hd
  case call.some =>
    rw [withoutIgnored, withoutIgnoredOfList_eq_map] at hd
    split at hd
    · obtain ⟨c, hc, rfl⟩ := List.mem_map.1 hd
      exact ⟨c, List.mem_cons_of_mem target hc, rfl⟩
    · rcases List.mem_cons.1 hd with rfl | hd
      · exact ⟨target, List.mem_cons_self, rfl⟩
      · obtain ⟨c, hc, rfl⟩ := List.mem_map.1 hd
        exact ⟨c, List.mem_cons_of_mem target hc, rfl⟩

mutual

/-- Without the targets of static calls an expression has the value that it has with them, for every
row. -/
theorem eval_withoutIgnored (e : Expr) : e.withoutIgnored.eval member = e.eval member := by
  match e with
  | row _ | value _ | captured _ _ => rfl
  | field base name ty => rw [withoutIgnored, eval, eval, isRow_withoutIgnored]
  | not e => rw [withoutIgnored, eval, eval, eval_withoutIgnored e]
  | cast e ty => rw [withoutIgnored, eval, eval, eval_withoutIgnored e]
  | binary op lhs rhs =>
    rw [withoutIgnored, eval, eval, eval_withoutIgnored lhs, eval_withoutIgnored rhs]
  | call none method args =>
    rw [withoutIgnored, eval, eval, evalList_withoutIgnored args, withoutIgnoredOfList_eq_map,
      List.length_map]
  | call (some target) method args =>
    rw [withoutIgnored]
    split
    · rename_i hstatic
      rw [eval, eval, evalList_withoutIgnored args, withoutIgnoredOfList_eq_map, List.length_map]
      cases hm : Method.resolve method args.length with
      | error f => rfl
      | ok m =>
        rw [callsStatic_of_ofName? (Method.resolve_eq_ok.1 hm).1] at hstatic
        simp only [bind, Except.bind, hstatic, if_true]
    · rw [eval, eval, eval_withoutIgnored target, evalList_withoutIgnored args,
        withoutIgnoredOfList_eq_map, List.length_map]

/-- Without the targets of static calls several expressions have the values that they have with
them. -/
theorem evalList_withoutIgnored (es : List Expr) :
    evalList member (withoutIgnoredOfList es) = evalList member es := by
  match es with
  | [] => rfl
  | e :: rest =>
    rw [withoutIgnoredOfList, evalList, evalList, eval_withoutIgnored e,
      evalList_withoutIgnored rest]

end

/-! ## Refusal -/

/-- When the row or a member is left without the targets of static calls, there is no value. -/
theorem exists_error_of_dependsOnRow {e : Expr} (h : e.withoutIgnored.dependsOnRow = true) :
    ∃ f, e.withoutIgnored.evalConst = .error f := by
  induction e using childrenInduction with
  | node e ih =>
    rw [dependsOnRow_eq, Bool.or_eq_true] at h
    rcases h with hself | hbelow
    · exact exists_error_of_isRow_or_isField hself
    · obtain ⟨d, hd, hrow⟩ := List.any_eq_true.1 hbelow
      obtain ⟨c, hc, rfl⟩ := exists_mem_children_of_withoutIgnored hd
      exact exists_error_of_mem_children (targetsStatic_withoutIgnored e) hd (ih c hc hrow)

/-- An expression that holds the row or a member is refused. -/
def RefusesRow (e : Expr) : Prop :=
  e.mentionsRow = true ∨ (∃ node ∈ e.nodes, node.isField = true) → ∃ f, e.evalConst = .error f

/-- Expressions are refused for the row and members that they hold, unless all of these stand in the
targets of static calls and what is left without the targets has a value. -/
theorem refusesRow_iff (e : Expr) :
    e.RefusesRow ↔
      ¬ (e.dependsOnRow = true ∧ e.withoutIgnored.dependsOnRow = false ∧
        ∃ v, e.withoutIgnored.evalConst = .ok v) := by
  have hvalue : e.withoutIgnored.evalConst = e.evalConst := eval_withoutIgnored e
  rw [RefusesRow, ← dependsOnRow_iff, hvalue]
  constructor
  · rintro h ⟨hrow, -, v, hv⟩
    obtain ⟨f, hf⟩ := h hrow
    rw [hf] at hv
    cases hv
  · intro h hrow
    cases hleft : e.withoutIgnored.dependsOnRow with
    | true =>
      rw [← hvalue]
      exact exists_error_of_dependsOnRow hleft
    | false =>
      cases he : e.evalConst with
      | error f => exact ⟨f, rfl⟩
      | ok v => exact absurd ⟨hrow, hleft, v, he⟩ h

/-- A static call on the row whose argument is the empty text. -/
def emptyOfRow : Expr :=
  call (some (row 0)) "IsNullOrEmpty" [value (.text "")]

/-- A static call on the row has a value. -/
theorem not_refusesRow_emptyOfRow : ¬ emptyOfRow.RefusesRow := by
  intro h
  obtain ⟨f, hf⟩ := h (.inl rfl)
  have hvalue : emptyOfRow.evalConst = .ok (.bool true) := by decide +kernel
  rw [hvalue] at hf
  cases hf

end RowQuery.Expr
