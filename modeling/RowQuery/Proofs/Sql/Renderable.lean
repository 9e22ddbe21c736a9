import Mathlib.Data.List.Basic
import RowQuery.Proofs.Sql.RecordedConstants

/-!
# Expressions that have a term

Whether an expression has a term follows from its members and its calls alone.  Members have to be
mapped members of the row, calls have to name a method and to give as many arguments as it takes,
and the row stands nowhere on its own.

Main results:

- Definition {lit}`Expr.renderable`: the members and calls of an expression are such that it has a
  term.
- Theorems {lit}`Sql.renderable_of_run` and {lit}`Sql.run_of_renderable`: an expression has a term
  exactly if it is renderable.
-/

namespace RowQuery

open Outcome

namespace Expr

mutual

/-- Every member is a mapped member of the row, every call gives a method as many arguments as it
takes, and the row is not used as a value.  The target of a static call does not matter. -/
def renderable (table : Table) : Expr → Bool
  | row _ => false
  | value _ => true
  | captured _ _ => true
  | field base name _ => base.isRow && (table.ofMember? name).isSome
  | not e => renderable table e
  | cast e _ => renderable table e
  | call none method args =>
    (Method.ofName? method).any (fun m => m.accepts args.length && m.isStatic) &&
      argumentsRenderable table args
  | call (some target) method args =>
    (Method.ofName? method).any (·.accepts args.length) &&
      (callsStatic method || renderable table target) && argumentsRenderable table args
  | binary _ lhs rhs => renderable table lhs && renderable table rhs

/-- All arguments are renderable. -/
def argumentsRenderable (table : Table) : List Expr → Bool
  | [] => true
  | e :: rest => renderable table e && argumentsRenderable table rest

end

/-- Null is renderable, whatever it is converted to. -/
theorem renderable_of_isNullConstant {table : Table} {e : Expr} (h : e.isNullConstant = true) :
    e.renderable table = true := by
  match e with
  | value _ | captured _ _ => rfl
  | cast e _ => exact renderable_of_isNullConstant (e := e) h

/-- An integer constant is renderable. -/
theorem renderable_of_integerConstant? {table : Table} {e : Expr} {n : Int}
    (h : e.integerConstant? = some n) : e.renderable table = true := by
  cases e with
  | value _ => rfl
  | _ => cases h

/-- An integer constant does not hold the row. -/
theorem mentionsRow_of_integerConstant? {e : Expr} {k : Int}
    (hk : e.integerConstant? = some k) : e.mentionsRow = false := by
  cases e with
  | value _ => rfl
  | _ => cases hk

end Expr

namespace Sql

/-! ## Expressions with a term -/

mutual

/-- An expression with a term is renderable. -/
theorem renderable_of_run {table : Table} {e : Expr} {t : Term} {before after : List Value}
    (h : (Term.ofExpr table e).run before = .ok (t, after)) : e.renderable table = true := by
  match e with
  | .row _ => exact absurd h run_throw_ne_ok
  | .value _ => rfl
  | .captured _ _ => rfl
  | .field base name _ =>
    simp only [Term.ofExpr, Term.ofMember] at h
    split at h
    · rename_i hrow
      split at h
      · rename_i c hc
        simp only [Expr.renderable, hrow, hc]
        rfl
      · exact absurd h run_throw_ne_ok
    · exact absurd h run_throw_ne_ok
  | .not e =>
    simp only [Term.ofExpr, run_bind_eq_ok] at h
    obtain ⟨_, _, he, _⟩ := h
    exact renderable_of_run (e := e) he
  | .cast e _ => exact renderable_of_run (e := e) h
  | .call none name args =>
    simp only [Term.ofExpr, run_bind_eq_ok, run_lift_eq_ok, resolveInQuery_eq_ok] at h
    obtain ⟨m, _, ⟨⟨hm, haccepts⟩, rfl⟩, h⟩ := h
    split at h
    · rename_i hstatic
      simp only [run_bind_eq_ok] at h
      obtain ⟨_, _, hargs, _⟩ := h
      simp [Expr.renderable, hm, haccepts, hstatic, argumentsRenderable_of_run hargs]
    · exact absurd h run_throw_ne_ok
  | .call (some target) name args =>
    simp only [Term.ofExpr, run_bind_eq_ok, run_lift_eq_ok, resolveInQuery_eq_ok] at h
    obtain ⟨m, _, ⟨⟨hm, haccepts⟩, rfl⟩, h⟩ := h
    split at h
    · rename_i hstatic
      simp only [run_bind_eq_ok] at h
      obtain ⟨_, _, hargs, _⟩ := h
      simp [Expr.renderable, Expr.callsStatic, hm, haccepts, hstatic,
        argumentsRenderable_of_run hargs]
    · simp only [run_bind_eq_ok] at h
      obtain ⟨_, _, htarget, _, _, hargs, _⟩ := h
      simp [Expr.renderable, hm, haccepts, renderable_of_run htarget,
        argumentsRenderable_of_run hargs]
  | .binary op lhs rhs =>
    simp only [Term.ofExpr] at h
    split at h
    · rename_i hnull
      simp only [run_bind_eq_ok] at h
      obtain ⟨_, _, hlhs, _⟩ := h
      simp [Expr.renderable, renderable_of_run hlhs, Expr.renderable_of_isNullConstant hnull]
    · rename_i hnull
      simp only [run_bind_eq_ok] at h
      obtain ⟨_, _, hrhs, _⟩ := h
      simp [Expr.renderable, renderable_of_run hrhs, Expr.renderable_of_isNullConstant hnull]
    · simp only [run_bind_eq_ok] at h
      obtain ⟨_, _, hlhs, _, _, hrhs, _⟩ := h
      simp [Expr.renderable, renderable_of_run hlhs, renderable_of_run hrhs]

/-- Arguments with terms are renderable. -/
theorem argumentsRenderable_of_run {table : Table} {written : Bool} {args : List Expr}
    {ts : List Term} {before after : List Value}
    (h : (Term.ofArguments table written args).run before = .ok (ts, after)) :
    Expr.argumentsRenderable table args = true := by
  match args with
  | [] => rfl
  | e :: rest =>
    simp only [Term.ofArguments] at h
    split at h
    · rename_i n hn
      simp only [run_bind_eq_ok] at h
      obtain ⟨_, _, _, _, _, hrest, _⟩ := h
      simp [Expr.argumentsRenderable, Expr.renderable_of_integerConstant? hn,
        argumentsRenderable_of_run hrest]
    · simp only [run_bind_eq_ok] at h
      obtain ⟨_, _, he, _, _, hrest, _⟩ := h
      simp [Expr.argumentsRenderable, renderable_of_run he, argumentsRenderable_of_run hrest]

end

/-! ## Terms of renderable expressions -/

/-- A method takes a number of arguments between two bounds. -/
theorem accepts_iff {m : Method} {count : Nat} :
    m.accepts count = true ↔ m.arity.1 ≤ count ∧ count ≤ m.arity.2 := by
  simp [Method.accepts]

/-- A method that is not static has a term for as many arguments as it takes. -/
theorem exists_term {m : Method} (hstatic : m.isStatic = false) {ts : List Term}
    (haccepts : m.accepts ts.length = true) (t : Term) : ∃ t', m.term t ts = .ok t' := by
  obtain ⟨hleast, hgreatest⟩ := accepts_iff.1 haccepts
  cases m with
  | isNullOrEmpty => cases hstatic
  | startsWith | endsWith | contains =>
    obtain ⟨p, rfl⟩ := List.length_eq_one_iff.1 (Nat.le_antisymm hgreatest hleast)
    exact ⟨_, rfl⟩
  | toUpper | toLower | trim =>
    obtain rfl := List.length_eq_zero_iff.1 (Nat.le_zero.1 hgreatest)
    exact ⟨_, rfl⟩
  | replace =>
    obtain ⟨p, new, rfl⟩ := List.length_eq_two.1 (Nat.le_antisymm hgreatest hleast)
    exact ⟨_, rfl⟩
  | substring =>
    rcases Nat.lt_or_eq_of_le hgreatest with hone | htwo
    · have hlength : ts.length = 1 := Nat.le_antisymm (Nat.le_of_lt_succ hone) hleast
      obtain ⟨start, rfl⟩ := List.length_eq_one_iff.1 hlength
      exact ⟨_, rfl⟩
    · obtain ⟨start, length, rfl⟩ := List.length_eq_two.1 htwo
      exact ⟨_, rfl⟩

/-- A static method has a term for as many arguments as it takes. -/
theorem exists_staticTerm {m : Method} (hstatic : m.isStatic = true) {ts : List Term}
    (haccepts : m.accepts ts.length = true) : ∃ t', m.staticTerm ts = .ok t' := by
  obtain rfl : m = .isNullOrEmpty := of_decide_eq_true hstatic
  obtain ⟨hleast, hgreatest⟩ := accepts_iff.1 haccepts
  obtain ⟨subject, rfl⟩ := List.length_eq_one_iff.1 (Nat.le_antisymm hgreatest hleast)
  exact ⟨_, rfl⟩

/-- A constant always has a term. -/
theorem exists_run_ofValue (v : Value) (before : List Value) :
    ∃ t after, (Term.ofValue v).run before = .ok (t, after) := by
  unfold Term.ofValue
  by_cases hnull : v.isNull = true
  · rw [if_pos hnull]
    exact ⟨_, _, rfl⟩
  · rw [if_neg hnull]
    exact ⟨_, _, rfl⟩

/-- A static call has a term when its arguments have terms, whatever its target is. -/
theorem exists_run_static {table : Table} {name : String} {m : Method} {args : List Expr}
    {ts : List Term} {before after : List Value} (hm : Method.ofName? name = some m)
    (haccepts : m.accepts args.length = true) (hstatic : m.isStatic = true)
    (hts : (Term.ofArguments table m.writesIntegers args).run before = .ok (ts, after))
    (hlength : ts.length = args.length) (target : Option Expr) :
    ∃ t after, (Term.ofExpr table (.call target name args)).run before = .ok (t, after) := by
  obtain ⟨t, ht⟩ := exists_staticTerm hstatic (hlength ▸ haccepts)
  refine ⟨t, after, ?_⟩
  cases target <;>
  · simp only [Term.ofExpr, run_bind_eq_ok, run_lift_eq_ok, resolveInQuery_eq_ok]
    refine ⟨m, before, ⟨⟨hm, haccepts⟩, rfl⟩, ?_⟩
    rw [if_pos hstatic, run_bind_eq_ok]
    exact ⟨ts, after, hts, run_lift_eq_ok.2 ⟨ht, rfl⟩⟩

mutual

/-- A renderable expression has a term, whatever was recorded before. -/
theorem run_of_renderable {table : Table} {e : Expr} (h : e.renderable table = true)
    (before : List Value) : ∃ t after, (Term.ofExpr table e).run before = .ok (t, after) := by
  match e with
  | .row _ => cases h
  | .value v =>
    simp only [Term.ofExpr]
    exact exists_run_ofValue v before
  | .captured _ v =>
    simp only [Term.ofExpr]
    exact exists_run_ofValue v before
  | .field base name _ =>
    simp only [Expr.renderable, Bool.and_eq_true, Option.isSome_iff_exists] at h
    obtain ⟨hrow, c, hc⟩ := h
    simp only [Term.ofExpr, Term.ofMember, hrow, hc, if_true]
    exact ⟨_, _, rfl⟩
  | .not e =>
    obtain ⟨t, after, ht⟩ := run_of_renderable (e := e) h before
    refine ⟨.negation (e.asCondition t), after, ?_⟩
    simp only [Term.ofExpr, run_bind_eq_ok, run_pure_eq_ok]
    exact ⟨t, after, ht, rfl, rfl⟩
  | .cast e _ =>
    simp only [Term.ofExpr]
    exact run_of_renderable (e := e) h before
  | .call none name args =>
    simp only [Expr.renderable, Bool.and_eq_true, Option.any_eq_true] at h
    obtain ⟨⟨m, hm, haccepts, hstatic⟩, hargs⟩ := h
    obtain ⟨ts, after, hts, hlength⟩ := runArguments_of_renderable hargs m.writesIntegers before
    exact exists_run_static hm haccepts hstatic hts hlength none
  | .call (some target) name args =>
    simp only [Expr.renderable, Bool.and_eq_true, Option.any_eq_true] at h
    obtain ⟨⟨⟨m, hm, haccepts⟩, htarget⟩, hargs⟩ := h
    by_cases hstatic : m.isStatic = true
    · obtain ⟨ts, after, hts, hlength⟩ := runArguments_of_renderable hargs m.writesIntegers before
      exact exists_run_static hm haccepts hstatic hts hlength (some target)
    · have hrenderable : target.renderable table = true := by
        simpa [Expr.callsStatic, hm, hstatic] using htarget
      obtain ⟨t, middle, htarget⟩ := run_of_renderable hrenderable before
      obtain ⟨ts, after, hts, hlength⟩ := runArguments_of_renderable hargs m.writesIntegers middle
      obtain ⟨t', ht'⟩ := exists_term (Bool.eq_false_iff.2 hstatic) (hlength ▸ haccepts) t
      refine ⟨t', after, ?_⟩
      simp only [Term.ofExpr, run_bind_eq_ok, run_lift_eq_ok, resolveInQuery_eq_ok]
      refine ⟨m, before, ⟨⟨hm, haccepts⟩, rfl⟩, ?_⟩
      rw [if_neg hstatic]
      simp only [run_bind_eq_ok, run_lift_eq_ok]
      exact ⟨t, middle, htarget, ts, after, hts, ht', rfl⟩
  | .binary op lhs rhs =>
    simp only [Expr.renderable, Bool.and_eq_true] at h
    obtain ⟨hlhs, hrhs⟩ := h
    simp only [Term.ofExpr]
    split
    · obtain ⟨t, after, ht⟩ := run_of_renderable hlhs before
      exact ⟨_, after, run_bind_eq_ok.2 ⟨t, after, ht, run_pure_eq_ok.2 ⟨rfl, rfl⟩⟩⟩
    · obtain ⟨t, after, ht⟩ := run_of_renderable hrhs before
      exact ⟨_, after, run_bind_eq_ok.2 ⟨t, after, ht, run_pure_eq_ok.2 ⟨rfl, rfl⟩⟩⟩
    · obtain ⟨left, middle, hleft⟩ := run_of_renderable hlhs before
      obtain ⟨right, after, hright⟩ := run_of_renderable hrhs middle
      by_cases hlogical : op.isLogical = true
      · refine ⟨.operation op (lhs.asCondition left) (rhs.asCondition right), after, ?_⟩
        simp only [run_bind_eq_ok, if_pos hlogical, run_pure_eq_ok]
        exact ⟨left, middle, hleft, right, after, hright, rfl, rfl⟩
      · refine ⟨.operation op left right, after, ?_⟩
        simp only [run_bind_eq_ok, if_neg hlogical, run_pure_eq_ok]
        exact ⟨left, middle, hleft, right, after, hright, rfl, rfl⟩

/-- Renderable arguments have terms, one for each of them. -/
theorem runArguments_of_renderable {table : Table} {args : List Expr}
    (h : Expr.argumentsRenderable table args = true) (written : Bool) (before : List Value) :
    ∃ ts after, (Term.ofArguments table written args).run before = .ok (ts, after) ∧
      ts.length = args.length := by
  match args with
  | [] => exact ⟨[], before, by simp only [Term.ofArguments]; rfl, rfl⟩
  | e :: rest =>
    simp only [Expr.argumentsRenderable, Bool.and_eq_true] at h
    obtain ⟨he, hrest⟩ := h
    simp only [Term.ofArguments]
    split
    · rename_i n _
      obtain ⟨ts, after, hts, hlength⟩ := runArguments_of_renderable hrest true before
      refine ⟨.integer n :: ts, after, ?_, congrArg Nat.succ hlength⟩
      simp only [run_bind_eq_ok, run_pure_eq_ok]
      exact ⟨.integer n, before, ⟨rfl, rfl⟩, ts, after, hts, rfl, rfl⟩
    · obtain ⟨t, middle, ht⟩ := run_of_renderable he before
      obtain ⟨ts, after, hts, hlength⟩ := runArguments_of_renderable hrest _ middle
      refine ⟨t :: ts, after, ?_, congrArg Nat.succ hlength⟩
      simp only [run_bind_eq_ok, run_pure_eq_ok]
      exact ⟨t, middle, ht, ts, after, hts, rfl, rfl⟩

end

end Sql

end RowQuery
