import RowQuery.Proofs.Query.Parameters
import RowQuery.Proofs.Query.Window
import RowQuery.Proofs.Sql.Renderable

/-!
# Counts that are constants

The number of rows to leave out or to keep has to be an integer constant.  It is read from the
constants that are recorded for its expression, and the term of the expression is thrown away.  So
an expression over the row passes for its only constant.  This module says that counts are
constants but for that.

Main results:

- Theorem {lit}`Draft.countOf_eq_ok`: which expressions stand for a number of rows.
- Definition {lit}`ConstantCounts`: an expression is taken for a number of rows only if it is an
  integer constant.
- Definition {lit}`HidesCount`: an expression is no integer constant and passes for one.
- Theorem {lit}`constantCounts_iff`: counts are constants exactly if the folded expression does not
  hide a count.
-/

namespace RowQuery

open Outcome

/-! ## Integers -/

/-- A value is a count if it has an integer, and the count is that integer. -/
theorem Value.toInt_of_count {v : Value} {n : UInt64} (h : v.count = .ok n) :
    ∃ k, v.integer? = some k ∧ k.toInt = n.toNat := by
  unfold count at h
  split at h
  · rename_i k hk
    split at h
    · rename_i hnonneg
      cases h
      refine ⟨k, hk, ?_⟩
      have hle : 0 ≤ k := Int64.le_iff_toInt_le.2 hnonneg
      rw [Int64.toNat_toUInt64_of_le hle]
      exact (Int.toNat_of_nonneg hnonneg).symm
    · cases h
  · cases h

/-- The constant that an integer constant records, as a count, is that integer. -/
theorem Expr.integerConstant?_of_count {e : Expr} {k : Int} {v : Value} {n : UInt64}
    (hk : e.integerConstant? = some k) (hrecorded : e.recorded = [v]) (hv : v.count = .ok n) :
    k = n.toNat := by
  obtain ⟨i, hi, hn⟩ := Value.toInt_of_count hv
  rw [← hn]
  cases e with
  | value w =>
    cases w with
    | int16 m =>
      cases hrecorded
      cases hk
      cases hi
      exact m.toInt_toInt64.symm
    | int32 m =>
      cases hrecorded
      cases hk
      cases hi
      exact m.toInt_toInt64.symm
    | int64 m =>
      cases hrecorded
      cases hk
      cases hi
      rfl
    | _ => cases hk
  | _ => cases hk

namespace Query

open Sql

/-! ## Expressions for counts -/

namespace Draft

variable {table : Table} {d d' : Draft} {e : Expr}

/-- An expression stands for a number of rows if the folded expression has a term and records a
single constant, which is a count. -/
theorem countOf_eq_ok {n : UInt64} :
    countOf table e = .ok n ↔
      ∃ e' v, e.foldLocal = .ok e' ∧ e'.renderable table = true ∧ e'.recorded = [v] ∧
        v.count = .ok n := by
  rw [countOf, bind_eq_ok]
  constructor
  · rintro ⟨⟨t, values⟩, hterm, h⟩
    obtain ⟨e', hfold, hrun⟩ := termAlone_eq_ok.1 hterm
    have hvalues : values = e'.recorded := (trace_ofExpr hrun).after_eq
    split at h
    · rename_i v hv
      exact ⟨e', v, hfold, renderable_of_run hrun, hvalues.symm.trans hv, h⟩
    · cases h
  · rintro ⟨e', v, hfold, hrenderable, hrecorded, hv⟩
    obtain ⟨t, values, hrun⟩ := run_of_renderable hrenderable []
    have hvalues : values = e'.recorded := (trace_ofExpr hrun).after_eq
    refine ⟨(t, values), termAlone_eq_ok.2 ⟨e', hfold, hrun⟩, ?_⟩
    rw [hvalues, hrecorded]
    exact hv

/-- An operator with a count needs an expression that stands for a number of rows. -/
theorem countOf_of_apply {b : Bounding} (h : Draft.apply table d (b.operator e) = .ok d') :
    ∃ n, countOf table e = .ok n := by
  have hadds := (apply_eq_ok.1 h).2
  cases b with
  | skip =>
    cases hadds with
    | skip hcount _ => exact ⟨_, hcount⟩
  | take =>
    cases hadds with
    | take hcount => exact ⟨_, hcount⟩

end Draft

/-! ## Refusals -/

/-- The fault of operators of which one has a count with a fault.  A fault of the operators in
front comes first, and behind a terminal the count is not looked at. -/
def Bounding.refusal (b : Bounding) (inFront : Except Fault Draft) (f : Fault) : Fault :=
  match inFront with
  | .error earlier => earlier
  | .ok d =>
    match d.terminal with
    | some terminal => Fault.unsupported (.afterTerminal b.name terminal.name)
    | none => f.context (.unsupported (.named b.name))

/-- An operator whose count has a fault is refused. -/
theorem Draft.apply_of_error {table : Table} {e : Expr} {f : Fault} (b : Bounding) (d : Draft)
    (h : countOf table e = .error f) :
    Draft.apply table d (b.operator e) = .error (b.refusal (.ok d) f) := by
  rw [Draft.apply.eq_def, Bounding.refusal]
  cases hterminal : d.terminal with
  | some terminal => simp
  | none =>
    cases b with
    | skip => exact bind_eq_error (operatorCount_of_error h "Skip") _
    | take => exact bind_eq_error (operatorCount_of_error h "Take") _

/-! ## Constants and what passes for them -/

/-- The query with an operator for a number of rows between other operators. -/
def Bounding.query (b : Bounding) (table : Table) (before after : List Operator) (e : Expr) :
    Query :=
  ⟨table, before ++ b.operator e :: after⟩

/-- An expression is taken for a number of rows only if it is an integer constant, and refused if
it is over the row. -/
structure ConstantCounts (table : Table) (e : Expr) : Prop where
  /-- With a statement, the folded expression is an integer that is not negative, and the paging of
  the statement uses it, together with the counts of the other operators. -/
  counted : ∀ (b : Bounding) (before after : List Operator) (dialect : Dialect) (s : Statement),
    (b.query table before after e).statement dialect = .ok s →
      ∃ e' n, e.foldLocal = .ok e' ∧ e'.integerConstant? = some (UInt64.toNat n : Int) ∧
        ∃ d p, (b.query table before after e).draft = .ok d ∧
          (d.select table).paging dialect = .ok p ∧
          s.text = d.asked ((d.select table).text p) ∧ s.limiter = p.limiter ∧
          b.used p = b.total (b.counts table before ++ n :: b.counts table after)
  /-- If the folded expression holds the row, then its count has a fault, and the fault of the
  operator has it for its cause. -/
  refused : ∀ (b : Bounding) (before after : List Operator) (dialect : Dialect) (e' : Expr),
    e.foldLocal = .ok e' → e'.mentionsRow = true →
      ∃ f, Draft.countOf table e = .error f ∧
        (b.query table before after e).statement dialect =
          .error (b.refusal (draft ⟨table, before⟩) f)

/-- An expression passes for a number of rows that it is not: it is no integer constant, but it has
a term, and the term records a single constant, which is a count. -/
structure HidesCount (table : Table) (e : Expr) : Prop where
  notConstant : e.integerConstant? = none
  renderable : e.renderable table = true
  single : ∃ v n, e.recorded = [v] ∧ v.count = .ok n

section

variable {table : Table} {before after : List Operator} {e : Expr} {b : Bounding}

/-- The operators of a query are applied in front of the operator, then the operator, then the
rest. -/
theorem draft_query :
    (b.query table before after e).draft =
      draft ⟨table, before⟩ >>= fun d => Draft.apply table d (b.operator e) >>= fun d' =>
        after.foldlM (Draft.apply table) d' :=
  Draft.draft_split table before after (b.operator e)

/-- A query whose count has a fault is refused. -/
theorem statement_of_error {f : Fault} (h : Draft.countOf table e = .error f) (dialect : Dialect) :
    (b.query table before after e).statement dialect =
      .error (b.refusal (draft ⟨table, before⟩) f) := by
  apply bind_eq_error
  rw [draft_query]
  cases hbefore : draft ⟨table, before⟩ with
  | error earlier => rfl
  | ok d => exact bind_eq_error (Draft.apply_of_error b d h) _

/-- The counts of a query are those in front of an operator, its own and those behind it. -/
theorem counts_query {n : UInt64} (h : Draft.countOf table e = .ok n) :
    b.counts table (before ++ b.operator e :: after) =
      b.counts table before ++ n :: b.counts table after := by
  have hcount : b.count? table (b.operator e) = some n := by
    cases b <;> simp [Bounding.operator, Bounding.count?, h, Except.toOption]
  rw [Bounding.counts, List.filterMap_append, List.filterMap_cons_some hcount]
  rfl

/-- A statement of a query uses the count of an operator together with those of the others. -/
theorem used_of_statement {dialect : Dialect} {s : Statement}
    (h : (b.query table before after e).statement dialect = .ok s) :
    ∃ n, Draft.countOf table e = .ok n ∧
      ∃ d p, (b.query table before after e).draft = .ok d ∧
        (d.select table).paging dialect = .ok p ∧
        s.text = d.asked ((d.select table).text p) ∧ s.limiter = p.limiter ∧
        b.used p = b.total (b.counts table before ++ n :: b.counts table after) := by
  obtain ⟨d, hdraft, hs⟩ := bind_eq_ok.1 h
  have happly := hdraft
  rw [draft_query, bind_eq_ok] at happly
  obtain ⟨d₀, _, happly⟩ := happly
  obtain ⟨d₁, happly, _⟩ := bind_eq_ok.1 happly
  obtain ⟨n, hn⟩ := Draft.countOf_of_apply happly
  obtain ⟨p, hp, htext, _, hlimiter⟩ := Draft.statement_eq_ok hs
  obtain ⟨hskipped, htaken⟩ := Select.paging_eq_ok hp
  refine ⟨n, hn, d, p, hdraft, hp, htext, hlimiter, ?_⟩
  rw [← counts_query hn]
  have hamount := Draft.amount_draft hdraft b
  cases b with
  | skip => exact hskipped.trans hamount
  | take => exact htaken.trans hamount

/-- An expression that stands for a number of rows is an integer constant, or it hides a count. -/
theorem integerConstant?_of_countOf {n : UInt64} (h : Draft.countOf table e = .ok n)
    (hhides : ∀ e', e.foldLocal = .ok e' → ¬ HidesCount table e') :
    ∃ e', e.foldLocal = .ok e' ∧ e'.integerConstant? = some (n.toNat : Int) := by
  obtain ⟨e', v, hfold, hrenderable, hrecorded, hv⟩ := Draft.countOf_eq_ok.1 h
  refine ⟨e', hfold, ?_⟩
  cases hk : e'.integerConstant? with
  | none => exact absurd ⟨hk, hrenderable, v, n, hrecorded, hv⟩ (hhides e' hfold)
  | some k => rw [Expr.integerConstant?_of_count hk hrecorded hv]

/-- An expression that stands for a number of rows is taken for it. -/
theorem statement_take {n : UInt64} (h : Draft.countOf table e = .ok n) :
    ∃ s, (Bounding.take.query table [] [] e).statement .top = .ok s := by
  have hdraft : (Bounding.take.query table [] [] e).draft = .ok (Draft.empty.bound n) := by
    have happly : Draft.apply table Draft.empty (.take e) = .ok (Draft.empty.bound n) :=
      Draft.apply_eq_ok.2 ⟨rfl, .take h⟩
    rw [draft_query]
    change Draft.apply table Draft.empty (.take e) >>= _ = _
    rw [happly]
    rfl
  exact ⟨_, bind_eq_ok.2 ⟨_, hdraft, rfl⟩⟩

end

/-- Counts are constants exactly if the folded expression does not hide a count. -/
theorem constantCounts_iff (table : Table) (e : Expr) :
    ConstantCounts table e ↔ ∀ e', e.foldLocal = .ok e' → ¬ HidesCount table e' := by
  constructor
  · intro h e' hfold hhides
    obtain ⟨v, n, hrecorded, hv⟩ := hhides.single
    have hn := Draft.countOf_eq_ok.2 ⟨e', v, hfold, hhides.renderable, hrecorded, hv⟩
    obtain ⟨s, hs⟩ := statement_take hn
    obtain ⟨e₁, m, hfold₁, hconstant, _⟩ := h.counted .take [] [] .top s hs
    rw [hfold] at hfold₁
    cases hfold₁
    rw [hhides.notConstant] at hconstant
    cases hconstant
  · intro hhides
    refine ⟨?_, ?_⟩
    · intro b before after dialect s hs
      obtain ⟨n, hn, hused⟩ := used_of_statement hs
      obtain ⟨e', hfold, hconstant⟩ := integerConstant?_of_countOf hn hhides
      exact ⟨e', n, hfold, hconstant, hused⟩
    · intro b before after dialect e' hfold hrow
      cases hcount : Draft.countOf table e with
      | error f => exact ⟨f, rfl, statement_of_error hcount dialect⟩
      | ok n =>
        obtain ⟨e₁, hfold₁, hconstant⟩ := integerConstant?_of_countOf hcount hhides
        rw [hfold] at hfold₁
        cases hfold₁
        rw [Expr.mentionsRow_of_integerConstant? hconstant] at hrow
        cases hrow

/-- People with an age. -/
def agedPeople : Table :=
  { name := "People"
    columns := [⟨"Age", "Age", .int32, none, none, .application⟩] }

/-- The age in five years. -/
def laterAge : Expr :=
  .binary (.compute .add) (.field (.row 0) "Age" .int32) (.value (.int32 5))

/-- To take as many people as the age in five years takes five people. -/
theorem take_laterAge :
    laterAge.foldLocal = .ok laterAge ∧ laterAge.mentionsRow = true ∧
      (∃ s, (Bounding.take.query agedPeople [] [] laterAge).statement .top = .ok s ∧
        s.text = "SELECT TOP 5 Age FROM People") ∧
      ¬ ConstantCounts agedPeople laterAge := by
  have hfold : laterAge.foldLocal = .ok laterAge := by rfl
  have hs : (Bounding.take.query agedPeople [] [] laterAge).statement .top =
      .ok ⟨"SELECT TOP 5 Age FROM People", [], none⟩ := by rfl
  refine ⟨hfold, rfl, ⟨_, hs, rfl⟩, ?_⟩
  intro h
  obtain ⟨f, _, hrefused⟩ := h.refused .take [] [] .top laterAge hfold rfl
  rw [hs] at hrefused
  cases hrefused

end Query

end RowQuery
