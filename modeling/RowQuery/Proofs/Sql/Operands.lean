import RowQuery.Proofs.Sql.BalancedText
import RowQuery.Proofs.Sql.RecordedConstants

/-!
# Operands that stand for themselves

The text of a term puts operands next to operators of different precedence.  An operand keeps
together, whatever stands next to it, if it is a name, a placeholder, an integer, a call, or a text
in one pair of parentheses.  A connective binds looser than a negation, so its operands may be
negated as well.

Every term but a negation is written as such a text.  A negation has no parentheses of its own, so
all operands keep together unless one is negated more often than the operator next to it allows.

Main results:

- Definition {lit}`SelfContained`: the texts that keep together next to any operator.
- Definition {lit}`Term.OperandsKept`: all operands that are written in a term keep together.
- Theorem {lit}`operandsKept_iff`: the expressions whose text keeps its operands together.
- Theorem {lit}`inactive_isNull`: a negation that is tested for null.
-/

namespace RowQuery

open Outcome

namespace Sql

/-! ## Texts that keep together -/

/-- A text that is one unit next to any operator. -/
inductive SelfContained : String → Prop where
  | identifier {name : String} (h : isIdentifier name = true) : SelfContained name
  | placeholder (index : Nat) : SelfContained (Term.placeholder index)
  | null : SelfContained "NULL"
  | integer (n : Int) : SelfContained (Number.integerText n)
  | call {name body : String} (hname : isIdentifier name = true) (hbody : Balanced body) :
    SelfContained (name ++ "(" ++ body ++ ")")
  | enclosed {body : String} (hbody : Balanced body) : SelfContained ("(" ++ body ++ ")")

/-- The part of a text in front of its first parenthesis. -/
def beforeParenthesis (text : String) : List Char :=
  text.toList.takeWhile (· ≠ '(')

/-- A text without blanks has none in front of its first parenthesis. -/
theorem blank_notMem_beforeParenthesis {text : String} (h : ' ' ∉ text.toList) :
    ' ' ∉ beforeParenthesis text := by
  intro hmem
  exact h ((List.takeWhile_sublist _).subset hmem)

/-- All of a text without parentheses is in front of the first one. -/
theorem beforeParenthesis_of_notMem {text : String} (h : '(' ∉ text.toList) :
    beforeParenthesis text = text.toList := by
  have hall : ∀ c ∈ text.toList, (decide (c ≠ '(')) = true := by
    intro c hc
    have hne : c ≠ '(' := fun heq => h (heq ▸ hc)
    simpa using hne
  rw [beforeParenthesis, ← List.append_nil text.toList, List.takeWhile_append_of_pos hall,
    List.takeWhile_nil]

/-- What follows a parenthesis is not in front of the first one. -/
theorem beforeParenthesis_append (a b : String) :
    beforeParenthesis (a ++ ("(" ++ b)) = beforeParenthesis a := by
  have hopen : ("(" : String).toList = ['('] := rfl
  rw [beforeParenthesis, beforeParenthesis, String.toList_append, String.toList_append, hopen]
  induction a.toList with
  | nil => simp
  | cons c cs ih =>
    rw [List.cons_append, List.takeWhile_cons, List.takeWhile_cons, ih]

/-- A self-contained text has no blank in front of its first parenthesis. -/
theorem SelfContained.blank_notMem {text : String} (h : SelfContained text) :
    ' ' ∉ beforeParenthesis text := by
  have hdigits (n : Nat) : ' ' ∉ n.repr.toList := notMem_repr n (by decide)
  cases h with
  | identifier h => exact blank_notMem_beforeParenthesis (notMem_of_isIdentifier h (by decide))
  | placeholder index =>
    apply blank_notMem_beforeParenthesis
    simpa [Term.placeholder] using hdigits index
  | null => decide
  | integer n =>
    apply blank_notMem_beforeParenthesis
    unfold Number.integerText
    split
    · simpa using hdigits n.natAbs
    · exact hdigits n.natAbs
  | @call name body hname _ =>
    rw [String.append_assoc, String.append_assoc, beforeParenthesis_append]
    exact blank_notMem_beforeParenthesis (notMem_of_isIdentifier hname (by decide))
  | @enclosed body _ =>
    have hempty : "(" ++ body ++ ")" = "" ++ ("(" ++ (body ++ ")")) := by
      rw [String.append_assoc, String.empty_append]
    rw [hempty, beforeParenthesis_append]
    decide

/-- A negation is not self-contained. -/
theorem not_selfContained_negation (body : String) : ¬ SelfContained ("NOT " ++ body) := by
  intro h
  apply h.blank_notMem
  simp [beforeParenthesis]

/-! ## Terms -/

namespace Term

/-- How often a term is negated, one negation right behind the other. -/
def negations : Term → Nat
  | negation t => t.negations + 1
  | _ => 0

/-- The name in front of the parentheses of a term is an identifier. -/
theorem name_of_enclosure? {t : Term} {name body : String} (h : t.enclosure? = some (name, body)) :
    name = "" ∨ isIdentifier name = true := by
  cases t with
  | operation | nullTest | isTrue | nullOrEmpty | like =>
    cases h
    exact .inl rfl
  | upper | lower | trimmed | replaced | piece =>
    cases h
    exact .inr (by decide)
  | _ => cases h

/-- A term that is written with parentheses is self-contained. -/
theorem selfContained_of_enclosure? {t : Term} {name body : String}
    (hparts : t.enclosure? = some (name, body)) (h : ∀ c ∈ t.columns, isIdentifier c = true) :
    SelfContained t.text := by
  have hbody : Balanced body := balanced_body hparts fun c hc => balanced_of_isIdentifier (h c hc)
  rw [text_of_enclosure? hparts]
  rcases name_of_enclosure? hparts with rfl | hname
  · rw [String.empty_append]
    exact .enclosed hbody
  · exact .call hname hbody

/-- The text of a term is self-contained unless the term is a negation. -/
theorem selfContained_text_iff {t : Term} (h : ∀ c ∈ t.columns, isIdentifier c = true) :
    SelfContained t.text ↔ t.negations = 0 := by
  cases t with
  | negation t => exact iff_of_false (not_selfContained_negation t.text) (Nat.succ_ne_zero _)
  | null => exact iff_of_true .null rfl
  | parameter index => exact iff_of_true (.placeholder index) rfl
  | integer n => exact iff_of_true (.integer n) rfl
  | column name => exact iff_of_true (.identifier (h name List.mem_cons_self)) rfl
  | _ => exact iff_of_true (selfContained_of_enclosure? rfl h) rfl

end Term

/-! ## Operands -/

/-- A term that is written next to an operator, which may bind looser than a negation. -/
structure Operand where
  loose : Bool
  term : Term

namespace Operand

/-- The operand keeps together: it is self-contained, or the negation of something self-contained
next to a loose operator. -/
def Kept (o : Operand) : Prop :=
  SelfContained o.term.text ∨
    o.loose = true ∧ ∃ body, o.term.text = "NOT " ++ body ∧ SelfContained body

/-- How often the operand may be negated. -/
def slack (o : Operand) : Nat :=
  if o.loose then 1 else 0

/-- The operand is not negated more often than the operator allows. -/
def withinSlack (o : Operand) : Bool :=
  o.term.negations ≤ o.slack

/-- An operand keeps together if it is not negated more often than the operator allows. -/
theorem kept_iff {o : Operand} (h : ∀ c ∈ o.term.columns, isIdentifier c = true) :
    o.Kept ↔ o.withinSlack = true := by
  rw [Kept, Term.selfContained_text_iff h, withinSlack, decide_eq_true_eq, slack]
  cases hterm : o.term with
  | negation t =>
    rw [hterm] at h
    have hbody : (∃ body, (Term.negation t).text = "NOT " ++ body ∧ SelfContained body) ↔
        t.negations = 0 := by
      rw [← Term.selfContained_text_iff (t := t) h]
      constructor
      · rintro ⟨body, htext, hbody⟩
        rwa [(String.append_right_inj "NOT ").1 htext]
      · intro ht
        exact ⟨t.text, rfl, ht⟩
    rw [hbody, Term.negations]
    split <;> simp_all
  | _ => simp [Term.negations]

end Operand

namespace Term

/-- The operands that are written in a term, next to an operator of the term or further inside. -/
def operands : Term → List Operand
  | null => []
  | parameter _ => []
  | integer _ => []
  | column _ => []
  | operation op left right =>
    ⟨op.isLogical, left⟩ :: ⟨op.isLogical, right⟩ :: (left.operands ++ right.operands)
  | nullTest _ t => ⟨false, t⟩ :: t.operands
  | isTrue t => ⟨false, t⟩ :: t.operands
  | negation t => t.operands
  | nullOrEmpty t => ⟨false, t⟩ :: t.operands
  | like t _ pattern _ => ⟨false, t⟩ :: ⟨false, pattern⟩ :: (t.operands ++ pattern.operands)
  | upper t => t.operands
  | lower t => t.operands
  | trimmed t => t.operands
  | replaced t pattern new => t.operands ++ pattern.operands ++ new.operands
  | piece t start length =>
    ⟨false, start⟩ :: (t.operands ++ start.operands ++ length.operands)

/-- All operands that are written in a term keep together. -/
def OperandsKept (t : Term) : Prop :=
  ∀ o ∈ t.operands, o.Kept

/-- No operand that is written in a term is negated more often than the operator next to it
allows. -/
def withinSlack (t : Term) : Bool :=
  t.operands.all Operand.withinSlack

/-- What a test for null asks of its operand. -/
theorem withinSlack_nullTest (negated : Bool) (t : Term) :
    (nullTest negated t).withinSlack = (decide (t.negations = 0) && t.withinSlack) := by
  simp [withinSlack, operands, Operand.withinSlack, Operand.slack]

/-- What an operator asks of its operands. -/
theorem withinSlack_operation (op : BinaryOp) (left right : Term) :
    (operation op left right).withinSlack =
      (let slack := if op.isLogical then 1 else 0
      left.negations ≤ slack && right.negations ≤ slack && left.withinSlack &&
        right.withinSlack) := by
  cases h : op.isLogical <;>
    simp [withinSlack, operands, Operand.withinSlack, Operand.slack, h, Bool.and_assoc]

/-- The columns of an operand are columns of the term. -/
theorem columns_of_mem_operands {t : Term} {o : Operand} (ho : o ∈ t.operands) {c : String}
    (hc : c ∈ o.term.columns) : c ∈ t.columns := by
  induction t with
  | null | parameter _ | integer _ | column _ => cases ho
  | negation t ih | upper t ih | lower t ih | trimmed t ih => exact ih ho
  | nullTest _ t ih | isTrue t ih | nullOrEmpty t ih =>
    rcases List.mem_cons.1 ho with rfl | ho
    · exact hc
    · exact ih ho
  | operation _ left right ihleft ihright =>
    simp only [operands, List.mem_cons, List.mem_append] at ho
    simp only [columns, List.mem_append]
    rcases ho with rfl | rfl | ho | ho
    · exact .inl hc
    · exact .inr hc
    · exact .inl (ihleft ho)
    · exact .inr (ihright ho)
  | like t _ pattern _ iht ihpattern =>
    simp only [operands, List.mem_cons, List.mem_append] at ho
    simp only [columns, List.mem_append]
    rcases ho with rfl | rfl | ho | ho
    · exact .inl hc
    · exact .inr hc
    · exact .inl (iht ho)
    · exact .inr (ihpattern ho)
  | replaced t pattern new iht ihpattern ihnew =>
    simp only [operands, List.mem_append] at ho
    simp only [columns, List.mem_append]
    rcases ho with (ho | ho) | ho
    · exact .inl (.inl (iht ho))
    · exact .inl (.inr (ihpattern ho))
    · exact .inr (ihnew ho)
  | piece t start length iht ihstart ihlength =>
    simp only [operands, List.mem_cons, List.mem_append] at ho
    simp only [columns, List.mem_append]
    rcases ho with rfl | (ho | ho) | ho
    · exact .inl (.inr hc)
    · exact .inl (.inl (iht ho))
    · exact .inl (.inr (ihstart ho))
    · exact .inr (ihlength ho)

/-- The operands of a term keep together if none is negated more often than the operator next to it
allows. -/
theorem operandsKept_iff_withinSlack {t : Term} (h : ∀ c ∈ t.columns, isIdentifier c = true) :
    t.OperandsKept ↔ t.withinSlack = true := by
  rw [OperandsKept, withinSlack, List.all_eq_true]
  apply forall₂_congr
  intro o ho
  exact Operand.kept_iff fun c hc => h c (columns_of_mem_operands ho hc)

end Term

end Sql

/-! ## Expressions -/

/-- No operand in the term of a call is negated, given how often the target and the arguments
are. -/
def Method.separates (m : Method) (target : Nat) (args : List Nat) : Bool :=
  (m.isStatic || !m.isPredicate || target = 0) &&
    (!(m.isPredicate || m = substring) || args.head?.all fun first => first = 0)

namespace Expr

/-- How often an expression is negated, under any conversions. -/
def negations : Expr → Nat
  | not e => e.negations + 1
  | cast e _ => e.negations
  | _ => 0

mutual

/-- Nothing that is negated is an operand of a comparison, of a computation, of a test for null or
of a text match, or the start of a piece, and nothing that is negated twice is an operand of a
connective.  The target of a static call does not matter. -/
def separates : Expr → Bool
  | row _ => true
  | value _ => true
  | captured _ _ => true
  | field _ _ _ => true
  | not e => separates e
  | cast e _ => separates e
  | call none method args =>
    (Method.ofName? method).all (·.separates 0 (args.map negations)) && argumentsSeparate args
  | call (some target) method args =>
    (Method.ofName? method).all (·.separates target.negations (args.map negations)) &&
      (callsStatic method || separates target) && argumentsSeparate args
  | binary op lhs rhs =>
    let slack := if op.isLogical then 1 else 0
    lhs.negations ≤ slack && rhs.negations ≤ slack && separates lhs && separates rhs

/-- All arguments keep their operands apart. -/
def argumentsSeparate : List Expr → Bool
  | [] => true
  | e :: rest => separates e && argumentsSeparate rest

end

/-- Null is not negated. -/
theorem negations_of_isNullConstant {e : Expr} (h : e.isNullConstant = true) : e.negations = 0 := by
  match e with
  | value _ | captured _ _ => rfl
  | cast e _ => exact negations_of_isNullConstant (e := e) h

/-- Null keeps its operands apart. -/
theorem separates_of_isNullConstant {e : Expr} (h : e.isNullConstant = true) :
    e.separates = true := by
  match e with
  | value _ | captured _ _ => rfl
  | cast e _ => exact separates_of_isNullConstant (e := e) h

end Expr

namespace Sql

/-- The term of a call keeps its operands apart if the method does and the target and the arguments
do. -/
theorem withinSlack_method {m : Method} {t t' : Term} {args : List Term}
    (h : m.term t args = .ok t') :
    t'.withinSlack = (m.separates t.negations (args.map Term.negations) && t.withinSlack &&
      args.all Term.withinSlack) := by
  unfold Method.term at h
  split at h
  all_goals
    cases h
    try simp [Term.withinSlack, Term.operands, Method.separates, Method.isStatic,
      Method.isPredicate, Operand.withinSlack, Operand.slack, Bool.and_assoc]

/-- The term of a call is no negation. -/
theorem negations_method {m : Method} {t t' : Term} {args : List Term}
    (h : m.term t args = .ok t') : t'.negations = 0 := by
  unfold Method.term at h
  split at h <;> cases h <;> rfl

/-- The term of a static call keeps its operands apart if the method does and the arguments do. -/
theorem withinSlack_staticMethod {m : Method} {t : Term} {args : List Term}
    (hstatic : m.isStatic = true) (h : m.staticTerm args = .ok t) (target : Nat) :
    t.withinSlack =
      (m.separates target (args.map Term.negations) && args.all Term.withinSlack) := by
  obtain ⟨subject, rfl, rfl⟩ := eq_of_staticTerm h
  obtain rfl : m = .isNullOrEmpty := of_decide_eq_true hstatic
  simp [Term.withinSlack, Term.operands, Method.separates, Method.isStatic, Method.isPredicate,
    Operand.withinSlack, Operand.slack]

/-- A condition that is made of a truth value has the operands of the truth value, which is not
negated. -/
theorem withinSlack_asCondition {e : Expr} {t : Term} (h : t.negations = e.negations) :
    (e.asCondition t).negations = e.negations ∧ (e.asCondition t).withinSlack = t.withinSlack := by
  unfold Expr.asCondition
  split
  · rename_i htruth
    have hnone : e.negations = 0 := by
      cases e with
      | not | cast => cases htruth
      | _ => rfl
    rw [hnone] at h ⊢
    refine ⟨rfl, ?_⟩
    simp [Term.withinSlack, Term.operands, Operand.withinSlack, Operand.slack, h]
  · exact ⟨h, rfl⟩

/-- The term of a constant is not negated and has no operands. -/
theorem separates_of_ofValue {v : Value} {t : Term} {before after : List Value}
    (h : (Term.ofValue v).run before = .ok (t, after)) :
    t.negations = 0 ∧ t.withinSlack = true := by
  unfold Term.ofValue at h
  split at h
  · obtain ⟨rfl, rfl⟩ := run_pure_eq_ok.1 h
    exact ⟨rfl, rfl⟩
  · cases h
    exact ⟨rfl, rfl⟩

/-- The term of a member is not negated and has no operands. -/
theorem separates_of_ofMember {table : Table} {base : Expr} {name : String} {t : Term}
    {before after : List Value} (h : (Term.ofMember table base name).run before = .ok (t, after)) :
    t.negations = 0 ∧ t.withinSlack = true := by
  unfold Term.ofMember at h
  split at h
  · split at h
    · obtain ⟨rfl, rfl⟩ := run_pure_eq_ok.1 h
      exact ⟨rfl, rfl⟩
    · exact absurd h run_throw_ne_ok
  · exact absurd h run_throw_ne_ok

/-- A test for equality is no connective. -/
theorem isLogical_of_equality? {op : BinaryOp} {negated : Bool}
    (h : op.equality? = some negated) : op.isLogical = false := by
  cases op with
  | connect => cases h
  | _ => rfl

mutual

/-- The term of an expression is negated as often as the expression, and keeps its operands apart if
the expression does. -/
theorem separates_of_ofExpr {table : Table} {e : Expr} {t : Term} {before after : List Value}
    (h : (Term.ofExpr table e).run before = .ok (t, after)) :
    t.negations = e.negations ∧ t.withinSlack = e.separates := by
  match e with
  | .row _ => exact absurd h run_throw_ne_ok
  | .value v => exact separates_of_ofValue (by simpa only [Term.ofExpr] using h)
  | .captured _ v => exact separates_of_ofValue (by simpa only [Term.ofExpr] using h)
  | .field base name ty => exact separates_of_ofMember (by simpa only [Term.ofExpr] using h)
  | .not e =>
    simp only [Term.ofExpr, run_bind_eq_ok, run_pure_eq_ok] at h
    obtain ⟨t', _, he, rfl, rfl⟩ := h
    obtain ⟨hnegations, hslack⟩ := separates_of_ofExpr he
    obtain ⟨hnegations', hslack'⟩ := withinSlack_asCondition hnegations
    exact ⟨congrArg Nat.succ hnegations', hslack'.trans hslack⟩
  | .cast e _ =>
    exact separates_of_ofExpr (e := e) (by simpa only [Term.ofExpr] using h)
  | .call none name args =>
    simp only [Term.ofExpr, run_bind_eq_ok, run_lift_eq_ok, resolveInQuery_eq_ok] at h
    obtain ⟨m, _, ⟨⟨hm, _⟩, rfl⟩, h⟩ := h
    split at h
    · rename_i hstatic
      simp only [run_bind_eq_ok, run_lift_eq_ok] at h
      obtain ⟨ts, _, hargs, ht, rfl⟩ := h
      obtain ⟨hnegations, hslack⟩ := separates_of_ofArguments hargs
      constructor
      · obtain ⟨subject, rfl, rfl⟩ := eq_of_staticTerm ht
        rfl
      · rw [withinSlack_staticMethod hstatic ht 0, hnegations, hslack]
        simp [Expr.separates, hm]
    · exact absurd h run_throw_ne_ok
  | .call (some target) name args =>
    simp only [Term.ofExpr, run_bind_eq_ok, run_lift_eq_ok, resolveInQuery_eq_ok] at h
    obtain ⟨m, _, ⟨⟨hm, _⟩, rfl⟩, h⟩ := h
    split at h
    · rename_i hstatic
      simp only [run_bind_eq_ok, run_lift_eq_ok] at h
      obtain ⟨ts, _, hargs, ht, rfl⟩ := h
      obtain ⟨hnegations, hslack⟩ := separates_of_ofArguments hargs
      constructor
      · obtain ⟨subject, rfl, rfl⟩ := eq_of_staticTerm ht
        rfl
      · rw [withinSlack_staticMethod hstatic ht target.negations, hnegations, hslack]
        simp [Expr.separates, hm, Expr.callsStatic, hstatic]
    · rename_i hstatic
      simp only [run_bind_eq_ok, run_lift_eq_ok] at h
      obtain ⟨t', _, htarget, ts, _, hargs, ht, rfl⟩ := h
      obtain ⟨hnegations, hslack⟩ := separates_of_ofExpr htarget
      obtain ⟨hnegationsArgs, hslackArgs⟩ := separates_of_ofArguments hargs
      refine ⟨negations_method ht, ?_⟩
      rw [withinSlack_method ht, hnegations, hslack, hnegationsArgs, hslackArgs]
      simp [Expr.separates, hm, Expr.callsStatic, hstatic]
  | .binary op lhs rhs =>
    simp only [Term.ofExpr] at h
    split at h
    · rename_i hequality hnull
      simp only [run_bind_eq_ok, run_pure_eq_ok] at h
      obtain ⟨t', _, hlhs, rfl, rfl⟩ := h
      obtain ⟨hnegations, hslack⟩ := separates_of_ofExpr hlhs
      refine ⟨rfl, ?_⟩
      rw [Term.withinSlack_nullTest, hnegations, hslack]
      simp [Expr.separates, isLogical_of_equality? hequality,
        Expr.negations_of_isNullConstant hnull, Expr.separates_of_isNullConstant hnull]
    · rename_i hequality _ hnull
      simp only [run_bind_eq_ok, run_pure_eq_ok] at h
      obtain ⟨t', _, hrhs, rfl, rfl⟩ := h
      obtain ⟨hnegations, hslack⟩ := separates_of_ofExpr hrhs
      refine ⟨rfl, ?_⟩
      rw [Term.withinSlack_nullTest, hnegations, hslack]
      simp [Expr.separates, isLogical_of_equality? hequality,
        Expr.negations_of_isNullConstant hnull, Expr.separates_of_isNullConstant hnull]
    · simp only [run_bind_eq_ok] at h
      obtain ⟨left, _, hlhs, right, _, hrhs, h⟩ := h
      obtain ⟨hnegationsLeft, hslackLeft⟩ := separates_of_ofExpr hlhs
      obtain ⟨hnegationsRight, hslackRight⟩ := separates_of_ofExpr hrhs
      obtain ⟨hconditionLeft, hslackLeft'⟩ := withinSlack_asCondition hnegationsLeft
      obtain ⟨hconditionRight, hslackRight'⟩ := withinSlack_asCondition hnegationsRight
      split at h
      · obtain ⟨rfl, rfl⟩ := run_pure_eq_ok.1 h
        refine ⟨rfl, ?_⟩
        rw [Term.withinSlack_operation, hconditionLeft, hconditionRight, hslackLeft', hslackRight',
          hslackLeft, hslackRight, Expr.separates]
      · obtain ⟨rfl, rfl⟩ := run_pure_eq_ok.1 h
        refine ⟨rfl, ?_⟩
        rw [Term.withinSlack_operation, hnegationsLeft, hnegationsRight, hslackLeft, hslackRight,
          Expr.separates]

/-- The terms of arguments are negated as often as the arguments, and keep their operands apart if
the arguments do. -/
theorem separates_of_ofArguments {table : Table} {written : Bool} {args : List Expr}
    {ts : List Term} {before after : List Value}
    (h : (Term.ofArguments table written args).run before = .ok (ts, after)) :
    ts.map Term.negations = args.map Expr.negations ∧
      ts.all Term.withinSlack = Expr.argumentsSeparate args := by
  match args with
  | [] =>
    obtain ⟨rfl, rfl⟩ := run_pure_eq_ok.1 h
    exact ⟨rfl, rfl⟩
  | e :: rest =>
    simp only [Term.ofArguments] at h
    split at h
    · rename_i n hn
      simp only [run_bind_eq_ok, run_pure_eq_ok] at h
      obtain ⟨t, _, ⟨rfl, rfl⟩, ts', _, hrest, rfl, rfl⟩ := h
      obtain ⟨hnegations, hslack⟩ := separates_of_ofArguments hrest
      cases e with
      | value v =>
        simp [Term.negations, hnegations, hslack, Expr.argumentsSeparate, Expr.negations,
          Expr.separates, Term.withinSlack, Term.operands]
      | _ => cases hn
    · simp only [run_bind_eq_ok, run_pure_eq_ok] at h
      obtain ⟨t, _, he, ts', _, hrest, rfl, rfl⟩ := h
      obtain ⟨hnegation, hslack⟩ := separates_of_ofExpr he
      obtain ⟨hnegations, hslacks⟩ := separates_of_ofArguments hrest
      simp [hnegation, hnegations, hslack, hslacks, Expr.argumentsSeparate]

end

/-! ## When operands keep together -/

/-- Over a table whose columns have identifiers as names, the operands in the text of an expression
keep together exactly if the expression keeps negations away from tighter operators, be it as a
value or as a condition. -/
theorem operandsKept_iff {table : Table} (hnames : ∀ c ∈ table.columns, isIdentifier c.name = true)
    {e : Expr} {t : Term} {before after : List Value}
    (h : (Term.ofExpr table e).run before = .ok (t, after) ∨
      (Term.ofCondition table e).run before = .ok (t, after)) :
    t.OperandsKept ↔ e.separates = true := by
  have hcolumns : (∀ c ∈ t.columns, c ∈ table.columns.map Column.name) := by
    rcases h with h | h
    · exact (trace_ofExpr h).columns_mem
    · exact (trace_ofCondition h).columns_mem
  have hslack : t.withinSlack = e.separates := by
    rcases h with h | h
    · exact (separates_of_ofExpr h).2
    · simp only [Term.ofCondition, run_bind_eq_ok, run_pure_eq_ok] at h
      obtain ⟨t', _, he, rfl, rfl⟩ := h
      obtain ⟨hnegations, hslack⟩ := separates_of_ofExpr he
      exact (withinSlack_asCondition hnegations).2.trans hslack
  rw [Term.operandsKept_iff_withinSlack, hslack]
  intro c hc
  obtain ⟨column, hcolumn, rfl⟩ := List.mem_map.1 (hcolumns c hc)
  exact hnames column hcolumn

/-- A table of members, who are active or not. -/
def membership : Table := ⟨"People", [⟨"Active", "Active", .bool, none, none, .application⟩]⟩

/-- The person is active. -/
def active : Expr := .field (.row 0) "Active" .bool

/-- A negation next to a connective keeps together. -/
theorem operandsKept_activeOrNot :
    (∀ c ∈ membership.columns, isIdentifier c.name = true) ∧
      ∃ t, (Term.ofCondition membership (.binary (.connect .or) active (.not active))).run [] =
        .ok (t, []) ∧ t.OperandsKept := by
  have hnames : ∀ c ∈ membership.columns, isIdentifier c.name = true := by decide
  have hrun : (Term.ofCondition membership (.binary (.connect .or) active (.not active))).run [] =
      .ok (.operation (.connect .or) (.isTrue (.column "Active"))
        (.negation (.isTrue (.column "Active"))), []) := rfl
  exact ⟨hnames, _, hrun, (operandsKept_iff hnames (.inr hrun)).2 (by decide)⟩

/-- A negation that is tested for null does not keep together: read from left to right, the text
negates the test. -/
theorem inactive_isNull :
    ∃ t,
      (Term.ofCondition membership (.binary (.compare .eq) (.not active) (.value .null))).run [] =
        .ok (t, []) ∧
      t.text = "(NOT (Active = 1) IS NULL)" ∧ ¬ t.OperandsKept := by
  refine ⟨.nullTest false (.negation (.isTrue (.column "Active"))), rfl, by decide, ?_⟩
  rw [Term.operandsKept_iff_withinSlack (by decide)]
  decide

end Sql

end RowQuery
