import RowQuery.Proofs.Outcome
import RowQuery.Query.Draft

/-!
# Steps of a draft

Operators add to a draft one by one, and the draft becomes a statement.  This module says once what
comes of either, so that what a draft holds can be followed through a query.

Main results:

- Definition {lit}`Draft.Adds`: what an operator makes of a draft.
- Theorem {lit}`Draft.apply_eq_ok`: an operator is accepted by a draft without a terminal if it adds
  to the draft.
- Theorem {lit}`Draft.statement_eq_ok`: a statement is written for a paging of the selection.
-/

namespace RowQuery.Query

open Outcome
open Sql

/-- The text of an ordering key with its direction. -/
def orderedText (table : Table) (operator : String) (direction : Direction) (key : Expr) :
    Except Fault String := do
  let text ← Draft.keyText table operator key
  match direction with
  | .ascending => return text
  | .descending => return text ++ " DESC"

namespace Draft

variable {table : Table} {d d' : Draft}

/-! ## Operators -/

/-- An operator has a count when its expression stands for one. -/
theorem operatorCount_eq_ok {operator : String} {e : Expr} {n : UInt64} :
    operatorCount table operator e = .ok n ↔ countOf table e = .ok n := by
  unfold operatorCount
  cases countOf table e with
  | error f => constructor <;> intro h <;> cases h
  | ok m => exact Iff.rfl

/-- The fault of a count is the cause of the fault of the operator. -/
theorem operatorCount_of_error {e : Expr} {f : Fault} (h : countOf table e = .error f)
    (operator : String) :
    operatorCount table operator e = .error (f.context (.unsupported (.named operator))) := by
  rw [operatorCount, h]
  rfl

/-- The condition that an expression becomes behind constants recorded before, and the constants
recorded then. -/
def conditionBehind (table : Table) (recorded : List Value) (e : Expr) :
    Except Fault (Condition × List Value) := do
  let (t, values) ← (Term.ofCondition table (← e.foldLocal)).run recorded
  return (⟨t.text, values.drop recorded.length⟩, values)

/-- A condition, together with the one before it if there is one. -/
def joined (filter : Option Condition) (added : Condition) : Condition :=
  match filter with
  | some earlier => earlier.and added
  | none => added

/-- To add a condition is to join it to the conditions before. -/
theorem addFilter_eq (table : Table) (e : Expr) (d : Draft) :
    d.addFilter table e = (conditionBehind table d.values e).map fun c =>
      { d with values := c.2, filter := some (joined d.filter c.1) } := by
  unfold addFilter conditionBehind
  cases e.foldLocal with
  | error f => rfl
  | ok e' =>
    change ((Term.ofCondition table e').run d.values >>= _) =
      Except.map _ ((Term.ofCondition table e').run d.values >>= _)
    cases (Term.ofCondition table e').run d.values with
    | error f => rfl
    | ok result => rfl

/-- A condition changes nothing but the filter and the constants. -/
theorem eq_of_addFilter? {condition : Option Expr} (h : d.addFilter? table condition = .ok d') :
    ∃ values filter, d' = { d with values, filter } := by
  cases condition with
  | none =>
    cases h
    exact ⟨d.values, d.filter, rfl⟩
  | some e =>
    rw [addFilter?, addFilter_eq, map_eq_ok] at h
    obtain ⟨c, _, rfl⟩ := h
    exact ⟨_, _, rfl⟩

/-- A key is added with its direction. -/
theorem orderedText_of_addKey {operator : String} {direction : Direction} {key : Expr}
    (h : d.addKey table operator direction key = .ok d') :
    ∃ text, orderedText table operator direction key = .ok text ∧
      d' = { d with keys := d.keys ++ [text] } := by
  obtain ⟨text, htext, h⟩ := bind_eq_ok.1 h
  cases direction with
  | ascending =>
    cases h
    exact ⟨text, bind_eq_ok.2 ⟨text, htext, rfl⟩, rfl⟩
  | descending =>
    cases h
    exact ⟨text ++ " DESC", bind_eq_ok.2 ⟨text, htext, rfl⟩, rfl⟩

/-- What an operator makes of a draft. -/
inductive Adds (table : Table) (d : Draft) : Operator → Draft → Prop
  /-- A condition has to hold as well. -/
  | filter {condition : Expr} {d' : Draft} (h : d.addFilter? table (some condition) = .ok d') :
    Adds table d (.filter condition) d'
  /-- A key comes behind those that are there. -/
  | orderBy {direction : Direction} {key : Expr} {d' : Draft}
    (h : d.addKey table (Operator.orderBy direction key).name direction key = .ok d') :
    Adds table d (.orderBy direction key) d'
  /-- A further key comes behind those that are there. -/
  | thenBy {direction : Direction} {key : Expr} {d' : Draft} (hkeys : d.keys.isEmpty = false)
    (h : d.addKey table (Operator.thenBy direction key).name direction key = .ok d') :
    Adds table d (.thenBy direction key) d'
  /-- More rows are left out, as long as their number is not bounded. -/
  | skip {count : Expr} {n : UInt64} (hcount : countOf table count = .ok n)
    (htake : d.take = none) :
    Adds table d (.skip count) { d with skip := some (addCountsUpTo (d.skip.getD 0) n) }
  /-- The number of rows is bounded. -/
  | take {count : Expr} {n : UInt64} (hcount : countOf table count = .ok n) :
    Adds table d (.take count) (d.bound n)
  /-- The number of rows is bounded by one. -/
  | first : Adds table d .first (d.bound 1)
  /-- The number of rows is asked for. -/
  | count {condition : Option Expr} {d' : Draft} (h : d.addFilter? table condition = .ok d') :
    Adds table d (.count condition) { d' with terminal := some .count }
  /-- Any row is asked for. -/
  | any {condition : Option Expr} {d' : Draft} (h : d.addFilter? table condition = .ok d') :
    Adds table d (.any condition) { d' with terminal := some .any }
  /-- A computation over the rows is asked for. -/
  | aggregate {function : Aggregate} {key : Expr} {text : String}
    (h : keyText table (Operator.aggregate function key).name key = .ok text) :
    Adds table d (.aggregate function key) { d with terminal := some (.aggregate function text) }

/-- An operator that is added to a draft adds to it. -/
theorem adds_of_addOperator {op : Operator} (h : d.addOperator table op = .ok d') :
    Adds table d op d' := by
  cases op with
  | filter condition => exact .filter h
  | orderBy direction key => exact .orderBy h
  | thenBy direction key =>
    rw [addOperator] at h
    split at h
    · cases h
    · rename_i hkeys
      exact .thenBy (Bool.eq_false_iff.2 hkeys) h
  | skip count =>
    obtain ⟨n, hn, h⟩ := bind_eq_ok.1 h
    split at h
    · cases h
    · rename_i htake
      cases h
      exact .skip (operatorCount_eq_ok.1 hn) (Option.not_isSome_iff_eq_none.1 htake)
  | take count =>
    obtain ⟨n, hn, h⟩ := bind_eq_ok.1 h
    cases h
    exact .take (operatorCount_eq_ok.1 hn)
  | first =>
    cases h
    exact .first
  | count condition =>
    obtain ⟨d₁, hfilter, h⟩ := bind_eq_ok.1 h
    cases h
    exact .count hfilter
  | any condition =>
    obtain ⟨d₁, hfilter, h⟩ := bind_eq_ok.1 h
    cases h
    exact .any hfilter
  | aggregate function key =>
    obtain ⟨text, htext, h⟩ := bind_eq_ok.1 h
    cases h
    exact .aggregate htext
  | select selector => cases h
  | groupBy key => cases h

/-- What an operator makes of a draft is made when it is added. -/
theorem Adds.addOperator_eq {op : Operator} (h : Adds table d op d') :
    d.addOperator table op = .ok d' := by
  cases h with
  | filter h => exact h
  | orderBy h => exact h
  | thenBy hkeys h =>
    rw [addOperator, if_neg (Bool.eq_false_iff.1 hkeys)]
    exact h
  | skip hcount htake =>
    rw [addOperator, addSkip, operatorCount_eq_ok.2 hcount, htake]
    rfl
  | take hcount =>
    rw [addOperator, operatorCount_eq_ok.2 hcount]
    rfl
  | first => rfl
  | count h =>
    rw [addOperator, h]
    rfl
  | any h =>
    rw [addOperator, h]
    rfl
  | aggregate h =>
    rw [addOperator, h]
    rfl

/-- An operator is accepted by a draft without a terminal if it adds to the draft. -/
theorem apply_eq_ok {op : Operator} :
    Draft.apply table d op = .ok d' ↔ d.terminal = none ∧ Adds table d op d' := by
  rw [Draft.apply.eq_def]
  cases d.terminal with
  | some terminal => simp
  | none => exact ⟨fun h => ⟨rfl, adds_of_addOperator h⟩, fun h => h.2.addOperator_eq⟩

/-- The operators of a query are applied in front of one of them, then that one, then the rest. -/
theorem draft_split (table : Table) (before after : List Operator) (op : Operator) :
    draft ⟨table, before ++ op :: after⟩ =
      draft ⟨table, before⟩ >>= fun d => Draft.apply table d op >>= fun d' =>
        after.foldlM (Draft.apply table) d' := by
  rw [draft, List.foldlM_append]
  simp only [List.foldlM_cons]
  rfl

/-! ## Statements -/

/-- The text of a selection, as a question for a row if that is what the terminal asks. -/
def asked (d : Draft) (text : String) : String :=
  if d.terminal = some .any then existsText text else text

/-- The statement of a draft is written for a paging of its selection. -/
theorem statement_eq_ok {dialect : Dialect} {s : Statement}
    (h : d.statement table dialect = .ok s) :
    ∃ p, (d.select table).paging dialect = .ok p ∧
      s.text = d.asked ((d.select table).text p) ∧
      s.sources = (d.filter.map Condition.source).toList ∧ s.limiter = p.limiter := by
  unfold Draft.statement at h
  split at h
  · rename_i hterminal
    obtain ⟨p, hp, h⟩ := bind_eq_ok.1 h
    cases h
    refine ⟨p, hp, ?_, rfl, rfl⟩
    rw [asked, hterminal, if_neg (by decide)]
  · rename_i terminal hterminal
    split at h
    · cases h
    obtain ⟨s', hs', h⟩ := bind_eq_ok.1 h
    obtain ⟨p, hp, hs'⟩ := bind_eq_ok.1 hs'
    cases hs'
    unfold close at h
    split at h
    · cases h
    refine ⟨p, hp, ?_⟩
    rw [asked, hterminal]
    cases terminal with
    | any =>
      cases h
      exact ⟨rfl, rfl, rfl⟩
    | count =>
      cases h
      exact ⟨rfl, rfl, rfl⟩
    | aggregate function key =>
      cases h
      exact ⟨rfl, rfl, rfl⟩

end Draft

end RowQuery.Query
