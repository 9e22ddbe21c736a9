import RowQuery.Proofs.Outcome
import RowQuery.Proofs.Sql.Numbering
import RowQuery.Proofs.Sql.TermText
import RowQuery.Sql.Recording

/-!
# The constants that a term records

To make a term of an expression records the constants of the expression, and the placeholders
of the term number them.  This module says which constants are recorded, in which order, that
the placeholders bring in their numbers one after the other, and which constant stands behind
each of them.

Main results:

- Definitions {lit}`Expr.recorded` and {lit}`Expr.written`: the constants of an expression from
  left to right, each once or as often as it is written.
- Definition {lit}`Trace`: what a computation that records constants leaves behind.
- Theorems {lit}`trace_ofExpr` and {lit}`trace_ofCondition`: a term numbers the constants of
  its expression, and its columns are columns of the table.
-/

namespace RowQuery

open Outcome

/-! ## Constants of an expression -/

namespace Expr

/-- A static method takes its subject as an argument, and a target is left alone. -/
def callsStatic (method : String) : Bool :=
  match Method.ofName? method with
  | some m => m.isStatic
  | none => false

/-- Integer constants that are arguments of the method are written out. -/
def writesArguments (method : String) : Bool :=
  match Method.ofName? method with
  | some m => m.writesIntegers
  | none => false

/-- The method decides whether a call is static. -/
theorem callsStatic_of_ofName? {name : String} {m : Method} (h : Method.ofName? name = some m) :
    callsStatic name = m.isStatic := by
  simp only [callsStatic, h]

/-- The method decides whether a call writes out integer constants. -/
theorem writesArguments_of_ofName? {name : String} {m : Method}
    (h : Method.ofName? name = some m) : writesArguments name = m.writesIntegers := by
  simp only [writesArguments, h]

/-- A constant on its own: null is not recorded. -/
def valueConstants (v : Value) : List Value :=
  if v.isNull then [] else [v]

/-- A list, a second time behind itself if asked for. -/
def repeated (again : Bool) (vs : List Value) : List Value :=
  if again then vs ++ vs else vs

mutual

/-- The constants of an expression that are recorded, from left to right.  The subject of a
static call is recorded once and written twice; its constants are listed again if asked for. -/
def constants (again : Bool) : Expr → List Value
  | row _ => []
  | value v => valueConstants v
  | captured _ v => valueConstants v
  | field base _ _ => constants again base
  | not e => constants again e
  | cast e _ => constants again e
  | call none method args =>
    repeated (again && callsStatic method)
      (argumentConstants again (writesArguments method) args)
  | call (some target) method args =>
    (if callsStatic method then [] else constants again target) ++
      repeated (again && callsStatic method)
        (argumentConstants again (writesArguments method) args)
  | binary _ lhs rhs => constants again lhs ++ constants again rhs

/-- The constants of arguments that are recorded; integer constants may be written out. -/
def argumentConstants (again written : Bool) : List Expr → List Value
  | [] => []
  | e :: rest =>
    (if written && e.integerConstant?.isSome then [] else constants again e) ++
      argumentConstants again written rest

end

/-- The constants of an expression, each once. -/
abbrev recorded (e : Expr) : List Value := e.constants false

/-- The constants of an expression, each as often as its placeholder is written. -/
abbrev written (e : Expr) : List Value := e.constants true

/-- An argument is not written out if no integer constant is written out in its place. -/
theorem eq_false_of_notWritten {written : Bool} {e : Expr}
    (h : ∀ n, written = true → e.integerConstant? = some n → False) :
    (written && e.integerConstant?.isSome) = false := by
  rw [Bool.eq_false_iff]
  intro hboth
  rcases Bool.and_eq_true_iff.1 hboth with ⟨hwritten, hconstant⟩
  rcases Option.isSome_iff_exists.1 hconstant with ⟨n, hn⟩
  exact h n hwritten hn

/-- Null records nothing, whatever it is converted to. -/
theorem constants_of_isNullConstant {e : Expr} (h : e.isNullConstant = true) (again : Bool) :
    e.constants again = [] := by
  match e with
  | value v => simpa [constants, valueConstants, isNullConstant] using h
  | captured _ v => simpa [constants, valueConstants, isNullConstant] using h
  | cast e _ =>
    have ih := constants_of_isNullConstant (e := e) (by simpa [isNullConstant] using h) again
    simpa [constants] using ih

/-- A recorded constant on its own is not null. -/
theorem isNull_of_mem_valueConstants {v w : Value} (h : v ∈ valueConstants w) :
    v.isNull = false := by
  unfold valueConstants at h
  split at h
  · cases h
  · rename_i hw
    rw [List.mem_singleton.1 h]
    exact Bool.eq_false_iff.2 hw

/-- A repeated list has the members of the list. -/
@[simp]
theorem mem_repeated {again : Bool} {vs : List Value} {v : Value} :
    v ∈ repeated again vs ↔ v ∈ vs := by
  unfold repeated
  split
  · rw [List.mem_append, or_self]
  · rfl

mutual

/-- No recorded constant is null. -/
theorem isNull_of_mem_constants {again : Bool} {e : Expr} {v : Value}
    (h : v ∈ e.constants again) : v.isNull = false := by
  match e with
  | row _ => simp [constants] at h
  | value w => exact isNull_of_mem_valueConstants (w := w) (by simpa only [constants] using h)
  | captured _ w => exact isNull_of_mem_valueConstants (w := w) (by simpa only [constants] using h)
  | field base _ _ => exact isNull_of_mem_constants (e := base) (by simpa only [constants] using h)
  | not e => exact isNull_of_mem_constants (e := e) (by simpa only [constants] using h)
  | cast e _ => exact isNull_of_mem_constants (e := e) (by simpa only [constants] using h)
  | call none method args =>
    simp only [constants, mem_repeated] at h
    exact isNull_of_mem_argumentConstants h
  | call (some target) method args =>
    simp only [constants, List.mem_append, List.mem_ite_nil_left, mem_repeated] at h
    rcases h with ⟨_, h⟩ | h
    · exact isNull_of_mem_constants h
    · exact isNull_of_mem_argumentConstants h
  | binary _ lhs rhs =>
    simp only [constants, List.mem_append] at h
    rcases h with h | h
    · exact isNull_of_mem_constants h
    · exact isNull_of_mem_constants h

/-- No recorded constant of the arguments is null. -/
theorem isNull_of_mem_argumentConstants {again written : Bool} {args : List Expr} {v : Value}
    (h : v ∈ argumentConstants again written args) : v.isNull = false := by
  match args with
  | [] => simp [argumentConstants] at h
  | e :: rest =>
    simp only [argumentConstants, List.mem_append, List.mem_ite_nil_left] at h
    rcases h with ⟨_, h⟩ | h
    · exact isNull_of_mem_constants h
    · exact isNull_of_mem_argumentConstants h

end

end Expr

/-! ## What a recording leaves behind -/

namespace Sql

/-- What is left behind by a computation that records constants: they stand behind those that
were there, the placeholders that were made number them and read them back as they are written,
and all columns are columns of the table. -/
structure Trace (table : Table) (recorded written before : List Value) (indices : List Nat)
    (columns : List String) (after : List Value) : Prop where
  after_eq : after = before ++ recorded
  numbered : Numbered before.length indices after.length
  reads : indices.map (after[·]?) = written.map some
  columns_mem : ∀ c ∈ columns, c ∈ table.columns.map Column.name

namespace Trace

variable {table : Table} {recorded recorded' written written' before middle after : List Value}
  {indices indices' : List Nat} {columns columns' : List String}

/-- A computation that makes no placeholder. -/
theorem of_columns {columns : List String} (h : ∀ c ∈ columns, c ∈ table.columns.map Column.name)
    (before : List Value) : Trace table [] [] before [] columns before where
  after_eq := (List.append_nil before).symm
  numbered := .nil before.length
  reads := rfl
  columns_mem := h

/-- A computation that makes nothing. -/
theorem nothing (table : Table) (before : List Value) : Trace table [] [] before [] [] before :=
  of_columns (by simp) before

/-- What a computation has recorded is read back behind later ones as well. -/
theorem reads_append (h : Trace table recorded written before indices columns middle)
    (more : List Value) : indices.map ((middle ++ more)[·]?) = written.map some := by
  rw [← h.reads]
  apply List.map_congr_left
  intro i hi
  exact List.getElem?_append_left (h.numbered.lt_of_mem hi)

/-- One computation behind another. -/
theorem append (h : Trace table recorded written before indices columns middle)
    (h' : Trace table recorded' written' middle indices' columns' after) :
    Trace table (recorded ++ recorded') (written ++ written') before (indices ++ indices')
      (columns ++ columns') after where
  after_eq := by rw [h'.after_eq, h.after_eq, List.append_assoc]
  numbered := h.numbered.append h'.numbered
  reads := by
    have hfirst : indices.map (after[·]?) = written.map some := by
      rw [h'.after_eq]
      exact h.reads_append recorded'
    rw [List.map_append, List.map_append, hfirst, h'.reads]
  columns_mem c hc := (List.mem_append.1 hc).elim (h.columns_mem c) (h'.columns_mem c)

/-- What was made is written twice. -/
theorem again (h : Trace table recorded written before indices columns after) :
    Trace table recorded (written ++ written) before (indices ++ indices) columns after where
  after_eq := h.after_eq
  numbered := h.numbered.again
  reads := by rw [List.map_append, List.map_append, h.reads]
  columns_mem := h.columns_mem

end Trace

/-! ## Parts of a term -/

/-- A condition that is made of a truth value has the placeholders of the truth value. -/
@[simp]
theorem indices_asCondition (e : Expr) (t : Term) : (e.asCondition t).indices = t.indices := by
  unfold Expr.asCondition
  split <;> rfl

/-- A condition that is made of a truth value has the columns of the truth value. -/
@[simp]
theorem columns_asCondition (e : Expr) (t : Term) : (e.asCondition t).columns = t.columns := by
  unfold Expr.asCondition
  split <;> rfl

/-- The term of a call has the placeholders of its target and of its arguments. -/
theorem indices_method {m : Method} {t t' : Term} {args : List Term} (h : m.term t args = .ok t') :
    t'.indices = t.indices ++ args.flatMap Term.indices := by
  unfold Method.term at h
  split at h <;> cases h <;> simp [Term.indices]

/-- The term of a call has the columns of its target and of its arguments. -/
theorem columns_method {m : Method} {t t' : Term} {args : List Term} (h : m.term t args = .ok t') :
    t'.columns = t.columns ++ args.flatMap Term.columns := by
  unfold Method.term at h
  split at h <;> cases h <;> simp [Term.columns]

/-- A static call has one argument, which is written twice. -/
theorem eq_of_staticTerm {m : Method} {t : Term} {args : List Term}
    (h : m.staticTerm args = .ok t) :
    ∃ subject, args = [subject] ∧ t = .nullOrEmpty subject := by
  unfold Method.staticTerm at h
  split at h
  · cases h
    exact ⟨_, rfl, rfl⟩
  · cases h

/-- A method is found for a call that has a number of arguments which it takes. -/
theorem resolveInQuery_eq_ok {name : String} {count : Nat} {m : Method} :
    Method.resolveInQuery name count = .ok m ↔
      Method.ofName? name = some m ∧ m.accepts count = true := by
  unfold Method.resolveInQuery
  cases Method.ofName? name with
  | none => simp
  | some m' =>
    by_cases h : m'.accepts count = true
    · simp only [h, if_true, Except.ok.injEq, Option.some.injEq]
      exact ⟨fun hm => ⟨hm, hm ▸ h⟩, And.left⟩
    · simp only [h, Bool.false_eq_true, if_false, Option.some.injEq, reduceCtorEq, false_iff]
      rintro ⟨rfl, haccepts⟩
      exact h haccepts

/-! ## Recording -/

/-- A constant is recorded unless it is null. -/
theorem trace_ofValue {table : Table} {v : Value} {t : Term} {before after : List Value}
    (h : (Term.ofValue v).run before = .ok (t, after)) :
    Trace table (Expr.valueConstants v) (Expr.valueConstants v) before t.indices t.columns
      after := by
  unfold Term.ofValue at h
  by_cases hnull : v.isNull = true
  · rw [if_pos hnull, run_pure_eq_ok] at h
    obtain ⟨rfl, rfl⟩ := h
    rw [Expr.valueConstants, if_pos hnull]
    exact Trace.nothing table before
  · rw [if_neg hnull] at h
    cases h
    rw [Expr.valueConstants, if_neg hnull]
    refine ⟨rfl, ?_, by simp [Term.indices], by simp [Term.columns]⟩
    rw [List.length_append]
    exact .new (.nil _)

/-- A static call writes its argument twice. -/
theorem trace_static {table : Table} {m : Method} {t : Term} {ts : List Term}
    {recorded written before after : List Value} (h : m.staticTerm ts = .ok t)
    (htrace : Trace table recorded written before (ts.flatMap Term.indices)
      (ts.flatMap Term.columns) after) :
    Trace table recorded (written ++ written) before t.indices t.columns after := by
  obtain ⟨subject, rfl, rfl⟩ := eq_of_staticTerm h
  rw [List.flatMap_singleton, List.flatMap_singleton] at htrace
  exact htrace.again

/-- The term of a member is a column of the table. -/
theorem trace_ofMember {table : Table} {base : Expr} {name : String} {t : Term}
    {before after : List Value} (h : (Term.ofMember table base name).run before = .ok (t, after)) :
    base.isRow = true ∧ Trace table [] [] before t.indices t.columns after := by
  unfold Term.ofMember at h
  split at h
  · rename_i hrow
    split at h
    · rename_i c hc
      rw [run_pure_eq_ok] at h
      obtain ⟨rfl, rfl⟩ := h
      have hmem : c ∈ table.columns := by
        rw [Table.ofMember?, Option.or_eq_some_iff] at hc
        rcases hc with hc | ⟨_, hc⟩ <;> exact List.mem_of_find?_eq_some hc
      refine ⟨hrow, Trace.of_columns ?_ before⟩
      intro name hname
      rw [Term.columns, List.mem_singleton] at hname
      exact List.mem_map.2 ⟨c, hmem, hname.symm⟩
    · exact absurd h run_throw_ne_ok
  · exact absurd h run_throw_ne_ok

mutual

/-- The term of an expression numbers the constants of the expression. -/
theorem trace_ofExpr {table : Table} {e : Expr} {t : Term} {before after : List Value}
    (h : (Term.ofExpr table e).run before = .ok (t, after)) :
    Trace table e.recorded e.written before t.indices t.columns after := by
  match e with
  | .row _ => exact absurd h run_throw_ne_ok
  | .value v => exact trace_ofValue (by simpa only [Term.ofExpr] using h)
  | .captured _ v => exact trace_ofValue (by simpa only [Term.ofExpr] using h)
  | .field base name ty =>
    obtain ⟨hrow, htrace⟩ := trace_ofMember (by simpa only [Term.ofExpr] using h)
    cases base with
    | row _ => simpa only [Expr.constants] using htrace
    | _ => cases hrow
  | .not e =>
    simp only [Term.ofExpr, run_bind_eq_ok, run_pure_eq_ok] at h
    obtain ⟨t', _, he, rfl, rfl⟩ := h
    simpa [Term.indices, Term.columns, Expr.constants] using trace_ofExpr he
  | .cast e _ =>
    have htrace := trace_ofExpr (e := e) (by simpa only [Term.ofExpr] using h)
    simpa only [Expr.constants] using htrace
  | .call none name args =>
    simp only [Term.ofExpr, run_bind_eq_ok, run_lift_eq_ok, resolveInQuery_eq_ok] at h
    obtain ⟨m, _, ⟨⟨hm, _⟩, rfl⟩, h⟩ := h
    split at h
    · rename_i hstatic
      simp only [run_bind_eq_ok, run_lift_eq_ok] at h
      obtain ⟨ts, _, hargs, ht, rfl⟩ := h
      have htrace := trace_static ht (trace_ofArguments hargs)
      simpa [Expr.constants, Expr.repeated, Expr.writesArguments, Expr.callsStatic, hm, hstatic]
        using htrace
    · exact absurd h run_throw_ne_ok
  | .call (some target) name args =>
    simp only [Term.ofExpr, run_bind_eq_ok, run_lift_eq_ok, resolveInQuery_eq_ok] at h
    obtain ⟨m, _, ⟨⟨hm, _⟩, rfl⟩, h⟩ := h
    split at h
    · rename_i hstatic
      simp only [run_bind_eq_ok, run_lift_eq_ok] at h
      obtain ⟨ts, _, hargs, ht, rfl⟩ := h
      have htrace := trace_static ht (trace_ofArguments hargs)
      simpa [Expr.constants, Expr.repeated, Expr.writesArguments, Expr.callsStatic, hm, hstatic]
        using htrace
    · rename_i hstatic
      simp only [run_bind_eq_ok, run_lift_eq_ok] at h
      obtain ⟨t', _, htarget, ts, _, hargs, ht, rfl⟩ := h
      have htrace := (trace_ofExpr htarget).append (trace_ofArguments hargs)
      rw [← indices_method ht, ← columns_method ht] at htrace
      simpa [Expr.constants, Expr.repeated, Expr.writesArguments, Expr.callsStatic, hm, hstatic]
        using htrace
  | .binary op lhs rhs =>
    simp only [Term.ofExpr] at h
    split at h
    · rename_i hnull
      simp only [run_bind_eq_ok, run_pure_eq_ok] at h
      obtain ⟨t', _, hlhs, rfl, rfl⟩ := h
      simpa [Expr.constants, Expr.constants_of_isNullConstant hnull, Term.indices, Term.columns]
        using trace_ofExpr hlhs
    · rename_i hnull
      simp only [run_bind_eq_ok, run_pure_eq_ok] at h
      obtain ⟨t', _, hrhs, rfl, rfl⟩ := h
      simpa [Expr.constants, Expr.constants_of_isNullConstant hnull, Term.indices, Term.columns]
        using trace_ofExpr hrhs
    · simp only [run_bind_eq_ok] at h
      obtain ⟨left, _, hlhs, right, _, hrhs, h⟩ := h
      have htrace := (trace_ofExpr hlhs).append (trace_ofExpr hrhs)
      split at h
      · obtain ⟨rfl, rfl⟩ := run_pure_eq_ok.1 h
        simpa [Expr.constants, Term.indices, Term.columns] using htrace
      · obtain ⟨rfl, rfl⟩ := run_pure_eq_ok.1 h
        simpa [Expr.constants, Term.indices, Term.columns] using htrace

/-- The terms of arguments number the constants of the arguments. -/
theorem trace_ofArguments {table : Table} {written : Bool} {args : List Expr} {ts : List Term}
    {before after : List Value}
    (h : (Term.ofArguments table written args).run before = .ok (ts, after)) :
    Trace table (Expr.argumentConstants false written args)
      (Expr.argumentConstants true written args) before (ts.flatMap Term.indices)
      (ts.flatMap Term.columns) after := by
  match args with
  | [] =>
    obtain ⟨rfl, rfl⟩ := run_pure_eq_ok.1 h
    exact Trace.nothing table before
  | e :: rest =>
    simp only [Term.ofArguments] at h
    split at h
    · rename_i n hn
      simp only [run_bind_eq_ok, run_pure_eq_ok] at h
      obtain ⟨t, _, ⟨rfl, rfl⟩, ts', _, hrest, rfl, rfl⟩ := h
      simpa [Expr.argumentConstants, hn, Term.indices, Term.columns] using trace_ofArguments hrest
    · rename_i written _ _ hwritten
      simp only [run_bind_eq_ok, run_pure_eq_ok] at h
      obtain ⟨t, _, he, ts', _, hrest, rfl, rfl⟩ := h
      have hrecorded := Expr.eq_false_of_notWritten hwritten
      simpa [Expr.argumentConstants, hrecorded] using
        (trace_ofExpr he).append (trace_ofArguments hrest)

end

/-- The term of a condition numbers the constants of the condition. -/
theorem trace_ofCondition {table : Table} {e : Expr} {t : Term} {before after : List Value}
    (h : (Term.ofCondition table e).run before = .ok (t, after)) :
    Trace table e.recorded e.written before t.indices t.columns after := by
  simp only [Term.ofCondition, run_bind_eq_ok, run_pure_eq_ok] at h
  obtain ⟨t', _, he, rfl, rfl⟩ := h
  simpa using trace_ofExpr he

end Sql

end RowQuery
