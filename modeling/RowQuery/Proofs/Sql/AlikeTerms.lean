import Mathlib.Data.List.Forall2
import RowQuery.Proofs.Outcome
import RowQuery.Proofs.Sql.RecordedConstants

/-!
# Terms of expressions that differ in their constants

A constant that is not null leaves nothing in a term but the place where it is recorded.  This
module compares two expressions that are built alike and differ in the contents of constants, and
says that they have the same term or fail with the same fault.

Main results:

- Definition {lit}`Expr.Alike`: the trees differ in corresponding constants only, and not in the
  integer constants that are written out.
- Definition {lit}`Lockstep`: two computations give the same answer, whatever the constants.
- Theorem {lit}`lockstep_ofExpr`: expressions that are alike become terms in lockstep.
-/

namespace RowQuery

open Outcome

/-! ## Values of the same variant -/

/-- Two values are of the same variant, and null is no variant but itself. -/
inductive Value.Alike : Value → Value → Prop
  | null : Alike .null .null
  | bool (a b : Bool) : Alike (.bool a) (.bool b)
  | int16 (m n : Int16) : Alike (.int16 m) (.int16 n)
  | int32 (m n : Int32) : Alike (.int32 m) (.int32 n)
  | int64 (m n : Int64) : Alike (.int64 m) (.int64 n)
  | double (x y : Float) : Alike (.double x) (.double y)
  | text (s t : String) : Alike (.text s) (.text t)
  | uuid (u u' : Uuid) : Alike (.uuid u) (.uuid u')
  | dateTime (m m' : DateTime) : Alike (.dateTime m) (.dateTime m')
  | date (d d' : Date) : Alike (.date d) (.date d')
  | bytes (bs cs : List UInt8) : Alike (.bytes bs) (.bytes cs)
  | enum (e e' : EnumValue) : Alike (.enum e) (.enum e')

namespace Value.Alike

variable {v w : Value}

/-- Null is alike to null only. -/
theorem isNull_eq (h : v.Alike w) : v.isNull = w.isNull := by
  cases h <;> rfl

/-- A truth value is alike to truth values only. -/
theorem isSome_bool? (h : v.Alike w) : v.bool?.isSome = w.bool?.isSome := by
  cases h <;> rfl

end Value.Alike

/-! ## Expressions that are built alike -/

variable {R : Value → Value → Prop}

namespace Expr

mutual

/-- The trees are the same apart from corresponding constants, which are related. -/
inductive Alike (R : Value → Value → Prop) : Expr → Expr → Prop
  | row (position : Nat) : Alike R (row position) (row position)
  | value {v w : Value} (h : R v w) : Alike R (value v) (value w)
  | captured (name : String) {v w : Value} (h : R v w) : Alike R (captured name v) (captured name w)
  | field {base base' : Expr} (h : Alike R base base') (name : String) (ty : Ty) :
    Alike R (field base name ty) (field base' name ty)
  | not {e e' : Expr} (h : Alike R e e') : Alike R (not e) (not e')
  | cast {e e' : Expr} (h : Alike R e e') (ty : Ty) : Alike R (cast e ty) (cast e' ty)
  | call (method : String) {args args' : List Expr}
    (h : AlikeArguments R (writesArguments method) args args') :
    Alike R (call none method args) (call none method args')
  | callOn {target target' : Expr} (htarget : Alike R target target') (method : String)
    {args args' : List Expr} (h : AlikeArguments R (writesArguments method) args args') :
    Alike R (call (some target) method args) (call (some target') method args')
  | binary (op : BinaryOp) {lhs lhs' rhs rhs' : Expr} (hlhs : Alike R lhs lhs')
    (hrhs : Alike R rhs rhs') : Alike R (binary op lhs rhs) (binary op lhs' rhs')

/-- The arguments are the same apart from corresponding constants, which are related.  Integer
constants may have to be the same. -/
inductive AlikeArguments (R : Value → Value → Prop) : Bool → List Expr → List Expr → Prop
  | nil (written : Bool) : AlikeArguments R written [] []
  | kept {e : Expr} {rest rest' : List Expr} (he : e.integerConstant?.isSome = true)
    (h : AlikeArguments R true rest rest') : AlikeArguments R true (e :: rest) (e :: rest')
  | cons {written : Bool} {e e' : Expr} {rest rest' : List Expr}
    (hwritten : written = true → e.integerConstant? = none) (he : Alike R e e')
    (h : AlikeArguments R written rest rest') :
    AlikeArguments R written (e :: rest) (e' :: rest')

end

namespace Alike

variable (hR : ∀ v w, R v w → v.Alike w)

include hR

/-- Expressions that are alike are null together, under any conversions. -/
theorem isNullConstant_eq {e e' : Expr} (h : Alike R e e') :
    e.isNullConstant = e'.isNullConstant := by
  match e with
  | .value _ =>
    cases h with
    | value h => exact (hR _ _ h).isNull_eq
  | .captured _ _ =>
    cases h with
    | captured _ h => exact (hR _ _ h).isNull_eq
  | .cast e _ =>
    cases h with
    | cast h _ =>
      have ih := isNullConstant_eq h
      exact ih
  | .row _ | .field _ _ _ | .not _ | .call none _ _ | .call (some _) _ _ | .binary _ _ _ =>
    cases h
    rfl

/-- Expressions that are alike are bare truth values together. -/
theorem isBareTruth_eq {e e' : Expr} (h : Alike R e e') :
    e.isBareTruth = e'.isBareTruth := by
  cases h with
  | value h => exact (hR _ _ h).isSome_bool?
  | captured _ h => exact (hR _ _ h).isSome_bool?
  | _ => rfl

/-- Expressions that are alike are integer constants together. -/
theorem isSome_integerConstant? {e e' : Expr} (h : Alike R e e') :
    e.integerConstant?.isSome = e'.integerConstant?.isSome := by
  cases h with
  | value h => cases hR _ _ h <;> simp [integerConstant?]
  | _ => rfl

/-- Expressions that are alike become conditions in the same way. -/
theorem asCondition_eq {e e' : Expr} (h : Alike R e e') :
    e.asCondition = e'.asCondition := by
  funext t
  rw [asCondition, asCondition, h.isBareTruth_eq hR]

end Alike

namespace AlikeArguments

/-- There are as many arguments. -/
theorem length_eq {written : Bool} {args args' : List Expr}
    (h : AlikeArguments R written args args') : args.length = args'.length := by
  match h with
  | .nil _ => rfl
  | .kept _ h => exact congrArg (· + 1) h.length_eq
  | .cons _ _ h => exact congrArg (· + 1) h.length_eq

/-- Whether arguments are written out depends on the method that is called. -/
theorem writesIntegers {method : String} {count : Nat} {m : Method} {args args' : List Expr}
    (h : AlikeArguments R (writesArguments method) args args')
    (hm : Method.resolveInQuery method count = .ok m) :
    AlikeArguments R m.writesIntegers args args' := by
  obtain ⟨hm, _⟩ := Sql.resolveInQuery_eq_ok.1 hm
  rwa [writesArguments, hm] at h

end AlikeArguments

end Expr

/-! ## Computations in lockstep -/

namespace Sql

variable {α β : Type}

/-- Two computations that record constants behind related ones fail with the same fault, or give
the same answer and record related constants. -/
def Lockstep (R : Value → Value → Prop) (x y : Recording α) : Prop :=
  ∀ before before', List.Forall₂ R before before' →
    Agree (fun a b => a.1 = b.1 ∧ List.Forall₂ R a.2 b.2) (x.run before) (y.run before')

namespace Lockstep

/-- A computation that does not record is in lockstep with itself. -/
theorem pure (a : α) : Lockstep R (Pure.pure a) (Pure.pure a) :=
  fun _ _ h => .ok ⟨rfl, h⟩

/-- A computation without a state is in lockstep with itself. -/
theorem lift (x : Except Fault α) : Lockstep R (liftM x) (liftM x) := by
  intro before before' h
  cases x with
  | error f => exact .error f
  | ok a => exact .ok ⟨rfl, h⟩

/-- A fault is in lockstep with itself. -/
theorem throw (f : Fault) : Lockstep R (throw f : Recording α) (throw f) :=
  fun _ _ _ => .error f

/-- Two steps are in lockstep when both are. -/
theorem bind {x y : Recording α} {f g : α → Recording β} (h : Lockstep R x y)
    (hf : ∀ a, Lockstep R (f a) (g a)) : Lockstep R (x >>= f) (y >>= g) := by
  intro before before' hbefore
  rw [StateT.run_bind, StateT.run_bind]
  refine (h before before' hbefore).bind ?_
  rintro ⟨a, after⟩ ⟨b, after'⟩ ⟨hab, hafter⟩
  cases hab
  exact hf a after after' hafter

/-- A step without a state in front of steps in lockstep. -/
theorem bind_lift {x : Except Fault α} {f g : α → Recording β}
    (h : ∀ a, x = .ok a → Lockstep R (f a) (g a)) :
    Lockstep R (liftM x >>= f) (liftM x >>= g) := by
  cases x with
  | error e => exact fun _ _ _ => .error e
  | ok a => exact h a rfl

/-- Related constants are recorded in lockstep: the placeholder has the number of constants before,
of which there are as many. -/
theorem record {v w : Value} (h : R v w) : Lockstep R (record v) (record w) := by
  intro before before' hbefore
  refine .ok ⟨?_, List.rel_append hbefore (.cons h .nil)⟩
  rw [hbefore.length_eq]

end Lockstep

/-! ## Terms -/

/-- Related constants become terms in lockstep. -/
theorem lockstep_ofValue (hR : ∀ v w, R v w → v.Alike w) {v w : Value} (h : R v w) :
    Lockstep R (Term.ofValue v) (Term.ofValue w) := by
  rw [Term.ofValue, Term.ofValue, (hR v w h).isNull_eq]
  split
  · exact .pure _
  · exact .record h

/-- An argument that is not written out is recorded like any expression. -/
theorem ofArguments_cons (table : Table) {written : Bool} {e : Expr} (rest : List Expr)
    (h : written = true → e.integerConstant? = none) :
    Term.ofArguments table written (e :: rest) = do
      let t ← Term.ofExpr table e
      return t :: (← Term.ofArguments table written rest) := by
  rw [Term.ofArguments]
  intro n hwritten hn
  rw [h hwritten] at hn
  cases hn

/-- An argument that is written out is not recorded. -/
theorem ofArguments_written (table : Table) {e : Expr} (rest : List Expr) {n : Int}
    (h : e.integerConstant? = some n) :
    Term.ofArguments table true (e :: rest) =
      (Term.ofArguments table true rest >>= fun ts => return .integer n :: ts) := by
  rw [Term.ofArguments.eq_2 _ _ _ n h]
  rfl

/-- A member is looked up by its name on the row, and has no constants. -/
theorem lockstep_ofMember {table : Table} {base base' : Expr} (h : Expr.Alike R base base')
    (name : String) :
    Lockstep R (Term.ofMember table base name) (Term.ofMember table base' name) := by
  have hrow : base.isRow = base'.isRow := by cases h <;> rfl
  rw [Term.ofMember, Term.ofMember, hrow]
  split
  · split
    · exact .pure _
    · exact .throw _
  · exact .throw _

mutual

/-- Expressions that are alike become terms in lockstep. -/
theorem lockstep_ofExpr (hR : ∀ v w, R v w → v.Alike w) {table : Table} {e e' : Expr}
    (h : Expr.Alike R e e') : Lockstep R (Term.ofExpr table e) (Term.ofExpr table e') := by
  match h with
  | .row _ =>
    rw [Term.ofExpr]
    exact .throw _
  | .value h =>
    rw [Term.ofExpr, Term.ofExpr]
    exact lockstep_ofValue hR h
  | .captured _ h =>
    rw [Term.ofExpr, Term.ofExpr]
    exact lockstep_ofValue hR h
  | .field h name _ =>
    rw [Term.ofExpr, Term.ofExpr]
    exact lockstep_ofMember h name
  | .not h =>
    rw [Term.ofExpr, Term.ofExpr, h.asCondition_eq hR]
    exact (lockstep_ofExpr hR h).bind fun t => .pure _
  | .cast h _ =>
    rw [Term.ofExpr, Term.ofExpr]
    exact lockstep_ofExpr hR h
  | .call method h =>
    rw [Term.ofExpr, Term.ofExpr, h.length_eq]
    refine .bind_lift fun m hm => ?_
    split
    · exact (lockstep_ofArguments hR (h.writesIntegers hm)).bind fun ts => .lift _
    · exact .throw _
  | .callOn htarget method h =>
    rw [Term.ofExpr, Term.ofExpr, h.length_eq]
    refine .bind_lift fun m hm => ?_
    have hargs : Lockstep R (Term.ofArguments table _ _) (Term.ofArguments table _ _) :=
      lockstep_ofArguments hR (h.writesIntegers hm)
    split
    · exact hargs.bind fun ts => .lift _
    · exact (lockstep_ofExpr hR htarget).bind fun t => hargs.bind fun ts => .lift _
  | .binary op hlhs hrhs =>
    rw [Term.ofExpr, Term.ofExpr, hlhs.isNullConstant_eq hR, hrhs.isNullConstant_eq hR,
      hlhs.asCondition_eq hR, hrhs.asCondition_eq hR]
    have hleft : Lockstep R (Term.ofExpr table _) (Term.ofExpr table _) := lockstep_ofExpr hR hlhs
    have hright : Lockstep R (Term.ofExpr table _) (Term.ofExpr table _) := lockstep_ofExpr hR hrhs
    split
    · exact hleft.bind fun t => .pure _
    · exact hright.bind fun t => .pure _
    · refine hleft.bind fun left => hright.bind fun right => ?_
      split <;> exact .pure _

/-- Arguments that are alike become terms in lockstep. -/
theorem lockstep_ofArguments (hR : ∀ v w, R v w → v.Alike w) {table : Table} {written : Bool}
    {args args' : List Expr} (h : Expr.AlikeArguments R written args args') :
    Lockstep R (Term.ofArguments table written args) (Term.ofArguments table written args') := by
  match h with
  | .nil _ =>
    rw [Term.ofArguments]
    exact .pure _
  | .kept he h =>
    obtain ⟨n, hn⟩ := Option.isSome_iff_exists.1 he
    rw [ofArguments_written table _ hn, ofArguments_written table _ hn]
    exact (lockstep_ofArguments hR h).bind fun ts => .pure _
  | .cons hwritten he h =>
    rw [ofArguments_cons table _ hwritten, ofArguments_cons table _ fun hw => ?_]
    · exact (lockstep_ofExpr hR he).bind fun t => (lockstep_ofArguments hR h).bind fun ts => .pure _
    · have hsome := he.isSome_integerConstant? hR
      rw [hwritten hw] at hsome
      exact Option.not_isSome_iff_eq_none.1 (Bool.eq_false_iff.1 hsome.symm)

end

/-- Expressions that are alike become conditions in lockstep. -/
theorem lockstep_ofCondition (hR : ∀ v w, R v w → v.Alike w) {table : Table} {e e' : Expr}
    (h : Expr.Alike R e e') :
    Lockstep R (Term.ofCondition table e) (Term.ofCondition table e') := by
  rw [Term.ofCondition, Term.ofCondition, h.asCondition_eq hR]
  exact (lockstep_ofExpr hR h).bind fun t => .pure _

end Sql

end RowQuery
