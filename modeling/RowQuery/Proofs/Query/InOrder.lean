import RowQuery.Proofs.Query.Paging
import RowQuery.Proofs.Sql.StableSort

/-!
# The order of operators

A query says operator by operator what becomes of the rows of a table.  Its statement says it in
one selection, which filters the rows, sorts them and takes a window of them, in this order.  This
module compares the two answers.  They are the same as long as no operator filters or orders what
is left of a window; otherwise the statement answers the query in which those operators stand in
front.

Main results:

- Definition {lit}`inOrder`: the answer of operators that are applied one after the other.
- Definition {lit}`Reading.answer`: the answer of a selection.
- Theorem {lit}`Draft.follows_run`: a draft says what has become of the rows, as long as its window
  comes last.
- Theorem {lit}`draft_rearrange`: operators that filter and sort may be moved to the front without
  a change of the draft.
- Theorem {lit}`inOrder_of_statement`: what a statement answers, in terms of its operators.
-/

namespace RowQuery.Query

open Outcome
open Sql

variable {table : Table} {α : Type}

/-! ## Readings -/

/-- The conditions that expressions become one behind the other, joined, and the constants recorded
then. -/
inductive Gathered (table : Table) : Condition → List Value → Prop
  | single {recorded values : List Value} {e : Expr} {c : Condition}
    (h : Draft.conditionBehind table recorded e = .ok (c, values)) : Gathered table c values
  | and {recorded values : List Value} {e : Expr} {earlier c : Condition}
    (hearlier : Gathered table earlier recorded)
    (h : Draft.conditionBehind table recorded e = .ok (c, values)) :
    Gathered table (earlier.and c) values

/-- How a database reads conditions and ordering keys of a table. -/
structure Reading (table : Table) (α : Type) where
  /-- The condition holds of a row. -/
  holds : Condition → α → Bool
  /-- Under the key, the first row is not behind the second one. -/
  le : String → α → α → Bool
  /-- Joined conditions hold of a row if both do. -/
  holds_and {recorded values : List Value} {e : Expr} {earlier c : Condition}
    (hearlier : Gathered table earlier recorded)
    (h : Draft.conditionBehind table recorded e = .ok (c, values)) (row : α) :
    holds (earlier.and c) row = (holds earlier row && holds c row)
  /-- Every key orders the rows. -/
  orders : ∀ key, Orders (le key)

/-- What is answered: rows, or whether there is one. -/
inductive Answer (α : Type) where
  | rows (rows : List α)
  | found (found : Bool)
  deriving DecidableEq

/-- The keys of the ordering of the selection that a draft has gathered. -/
def Draft.orderingKeys (d : Draft) : List String := if d.ordersRows then d.keys else []

namespace Reading

variable (r : Reading table α)

/-- The filter, if there is one, holds of a row. -/
def satisfies (filter : Option Condition) (row : α) : Bool := filter.all (r.holds · row)

/-- The rows in the order of several keys. -/
def sorted (keys : List String) (rows : List α) : List α := rows.mergeSort (byKeys r.le keys)

/-- The rows that satisfy a filter, in the order of several keys. -/
def arranged (filter : Option Condition) (keys : List String) (rows : List α) : List α :=
  r.sorted keys (rows.filter (r.satisfies filter))

/-- The answer of the selection that a draft has gathered: the rows of the table are filtered,
sorted and paged. -/
def answer (d : Draft) (p : Paging) (rows : List α) : Answer α :=
  let selected := p.rows (r.arranged d.filter d.orderingKeys rows)
  if d.terminal = some .any then .found (!selected.isEmpty) else .rows selected

/-- Without keys, the rows stay in their order. -/
theorem sorted_nil (rows : List α) : r.sorted [] rows = rows :=
  List.mergeSort_of_pairwise (List.pairwise_of_forall fun _ _ => rfl)

/-- Without a filter and keys, the rows stay as they are. -/
theorem arranged_nil (rows : List α) : r.arranged none [] rows = rows := by
  rw [arranged, r.sorted_nil]
  exact List.filter_eq_self.2 fun _ _ => rfl

/-- A row satisfies joined conditions if it satisfies both. -/
theorem satisfies_joined {filter : Option Condition} {recorded values : List Value} {e : Expr}
    {c : Condition} (hfilter : ∀ earlier ∈ filter, Gathered table earlier recorded)
    (h : Draft.conditionBehind table recorded e = .ok (c, values)) (row : α) :
    r.satisfies (some (Draft.joined filter c)) row = (r.satisfies filter row && r.holds c row) := by
  cases filter with
  | none => exact (Bool.true_and _).symm
  | some earlier => exact r.holds_and (hfilter earlier rfl) h row

/-- To filter arranged rows is to join the conditions. -/
theorem filter_arranged {filter : Option Condition} {recorded values : List Value} {e : Expr}
    {c : Condition} (hfilter : ∀ earlier ∈ filter, Gathered table earlier recorded)
    (h : Draft.conditionBehind table recorded e = .ok (c, values)) (keys : List String)
    (rows : List α) :
    (r.arranged filter keys rows).filter (r.holds c) =
      r.arranged (some (Draft.joined filter c)) keys rows := by
  have hboth : (rows.filter (r.satisfies filter)).filter (r.holds c) =
      rows.filter (r.satisfies (some (Draft.joined filter c))) := by
    rw [List.filter_filter]
    refine List.filter_congr fun row _ => ?_
    rw [r.satisfies_joined hfilter h, Bool.and_comm]
  rw [arranged, sorted, filter_mergeSort (orders_byKeys r.orders keys), hboth]
  rfl

/-- To sort arranged rows by more keys is to add the keys. -/
theorem sorted_arranged (filter : Option Condition) (keys more : List String) (rows : List α) :
    r.sorted (keys ++ more) (r.arranged filter keys rows) =
      r.arranged filter (keys ++ more) rows :=
  mergeSort_byKeys_append r.orders keys more _

/-- The number of arranged rows does not depend on the keys. -/
theorem length_arranged (filter : Option Condition) (keys : List String) (rows : List α) :
    (r.arranged filter keys rows).length = (rows.filter (r.satisfies filter)).length :=
  List.length_mergeSort _

/-- Arranged rows are rows of the table. -/
theorem length_arranged_le (filter : Option Condition) (keys : List String) (rows : List α) :
    (r.arranged filter keys rows).length ≤ rows.length := by
  rw [length_arranged]
  exact List.length_filter_le _ _

end Reading

/-! ## One operator after the other -/

/-- What has become of the rows after some operators.  The keys by which they are sorted and the
constants of the conditions before are known, as later operators refer to them. -/
structure Stage (α : Type) where
  rows : List α
  keys : List String
  values : List Value
  asks : Bool

namespace Stage

/-- The rows of a table. -/
def start (rows : List α) : Stage α := { rows, keys := [], values := [], asks := false }

/-- Keeps the rows of which a condition holds. -/
def filter (r : Reading table α) (condition : Expr) (stage : Stage α) :
    Except Fault (Stage α) := do
  let (c, values) ← Draft.conditionBehind table stage.values condition
  return { stage with rows := stage.rows.filter (r.holds c), values }

/-- Sorts the rows by one more key, which decides only what the keys before leave open. -/
def order (r : Reading table α) (operator : String) (direction : Direction) (key : Expr)
    (stage : Stage α) : Except Fault (Stage α) := do
  let text ← orderedText table operator direction key
  let keys := stage.keys ++ [text]
  return { stage with rows := r.sorted keys stage.rows, keys }

/-- What an operator makes of the rows. -/
def perform (r : Reading table α) (stage : Stage α) (op : Operator) : Except Fault (Stage α) :=
  match op with
  | .filter condition => stage.filter r condition
  | .orderBy direction key => stage.order r op.name direction key
  | .thenBy direction key => stage.order r op.name direction key
  | .skip count => do
    return { stage with rows := stage.rows.drop (← Draft.countOf table count).toNat }
  | .take count => do
    return { stage with rows := stage.rows.take (← Draft.countOf table count).toNat }
  | .first => .ok { stage with rows := stage.rows.take 1 }
  | .any none => .ok { stage with asks := true }
  | .any (some condition) => do return { ← stage.filter r condition with asks := true }
  | .count _ | .aggregate _ _ | .select _ | .groupBy _ =>
    .error (Fault.unsupported (.named op.name))

/-- The rows, or whether there is one if that is asked. -/
def answer (stage : Stage α) : Answer α :=
  if stage.asks then .found (!stage.rows.isEmpty) else .rows stage.rows

end Stage

/-- The answer of operators that are applied to the rows of a table one after the other. -/
def inOrder (r : Reading table α) (operators : List Operator) (rows : List α) :
    Except Fault (Answer α) :=
  (operators.foldlM (Stage.perform r) (Stage.start rows)).map Stage.answer

namespace Operator

/-- The operator keeps or sorts rows, or asks whether there is one. -/
def asksForRows : Operator → Bool
  | filter _ | orderBy _ _ | thenBy _ _ | skip _ | take _ | first | any _ => true
  | count _ | aggregate _ _ | select _ | groupBy _ => false

/-- The operator looks at the rows, to filter or to sort them. -/
def looksAtRows : Operator → Bool
  | filter _ | orderBy _ _ | thenBy _ _ | any (some _) => true
  | _ => false

/-- The part of an operator that filters or sorts. -/
def front : Operator → List Operator
  | filter condition => [filter condition]
  | orderBy direction key => [orderBy direction key]
  | thenBy direction key => [thenBy direction key]
  | any (some condition) => [filter condition]
  | _ => []

/-- The part of an operator that takes the rows as they are. -/
def back : Operator → List Operator
  | filter _ | orderBy _ _ | thenBy _ _ => []
  | any _ => [any none]
  | op => [op]

end Operator

/-- No operator filters or sorts what is left of a window. -/
def WindowLast (operators : List Operator) : Prop :=
  operators.Pairwise fun op later => op.pages = true → later.looksAtRows = false

instance (operators : List Operator) : Decidable (WindowLast operators) :=
  inferInstanceAs (Decidable (operators.Pairwise _))

/-- The operators that filter and sort, in front of the others. -/
def rearranged (operators : List Operator) : List Operator :=
  operators.flatMap Operator.front ++ operators.flatMap Operator.back

/-- A part that filters or sorts neither pages nor asks for something in place of the rows. -/
theorem Operator.of_mem_front {op part : Operator} (h : part ∈ op.front) :
    part.pages = false ∧ part.isTerminal = false ∧ part.asksForRows = true := by
  cases op with
  | filter _ | orderBy _ _ | thenBy _ _ => rw [List.mem_singleton.1 h]; exact ⟨rfl, rfl, rfl⟩
  | any condition =>
    cases condition with
    | none => cases h
    | some _ => rw [List.mem_singleton.1 h]; exact ⟨rfl, rfl, rfl⟩
  | _ => cases h

/-- The other part does not look at the rows. -/
theorem Operator.of_mem_back {op part : Operator} (h : part ∈ op.back) :
    part.looksAtRows = false ∧ part.asksForRows = op.asksForRows := by
  cases op with
  | filter _ | orderBy _ _ | thenBy _ _ => cases h
  | _ => rw [List.mem_singleton.1 h]; exact ⟨rfl, rfl⟩

/-- Once they are rearranged, no operator filters or sorts what is left of a window. -/
theorem windowLast_rearranged (operators : List Operator) : WindowLast (rearranged operators) := by
  have hfront {op later : Operator} (hop : op ∈ operators.flatMap Operator.front) :
      op.pages = true → later.looksAtRows = false := by
    obtain ⟨_, -, hop⟩ := List.mem_flatMap.1 hop
    intro hpages
    rw [(Operator.of_mem_front hop).1] at hpages
    cases hpages
  have hback {later : Operator} (hlater : later ∈ operators.flatMap Operator.back) :
      later.looksAtRows = false := by
    obtain ⟨_, -, hlater⟩ := List.mem_flatMap.1 hlater
    exact (Operator.of_mem_back hlater).1
  refine List.pairwise_append.2 ⟨?_, ?_, ?_⟩
  · exact List.pairwise_of_forall_mem_list fun op hop _ _ => hfront hop
  · exact List.pairwise_of_forall_mem_list fun _ _ later hlater _ => hback hlater
  · exact fun op hop _ _ => hfront hop

/-- Rearranged operators ask for rows if they did before. -/
theorem asksForRows_rearranged {operators : List Operator}
    (hops : ∀ op ∈ operators, op.asksForRows = true) :
    ∀ op ∈ rearranged operators, op.asksForRows = true := by
  intro part hpart
  rcases List.mem_append.1 hpart with hpart | hpart
  · obtain ⟨_, -, hpart⟩ := List.mem_flatMap.1 hpart
    exact (Operator.of_mem_front hpart).2.2
  · obtain ⟨op, hop, hpart⟩ := List.mem_flatMap.1 hpart
    exact (Operator.of_mem_back hpart).2.trans (hops op hop)

namespace Draft

variable {d d' : Draft}

/-! ## Drafts and stages -/

/-- Rows are left out or their number is bounded. -/
def isPaged (d : Draft) : Bool := d.skip.isSome || d.take.isSome

/-- A draft without a window keeps all rows. -/
theorem slice_of_not_isPaged (h : d.isPaged = false) (rows : List α) :
    slice d.skipped d.taken? rows = rows := by
  obtain ⟨hskip, htake⟩ := Bool.or_eq_false_iff.1 h
  rw [Option.isSome_eq_false_iff, Option.isNone_iff_eq_none] at hskip htake
  rw [skipped, taken?, hskip, htake]
  rfl

/-- A draft says what has become of all rows of a table. -/
structure Follows (r : Reading table α) (all : List α) (d : Draft) (stage : Stage α) : Prop where
  rows : stage.rows = slice d.skipped d.taken? (r.arranged d.filter d.keys all)
  keys : stage.keys = d.keys
  values : stage.values = d.values
  terminal : d.terminal = if stage.asks then some .any else none
  gathered : ∀ c ∈ d.filter, Gathered table c d.values

section

variable {r : Reading table α} {all : List α} {stage : Stage α}

/-- The empty draft says that all rows are there. -/
theorem follows_empty (r : Reading table α) (all : List α) :
    Follows r all empty (Stage.start all) where
  rows := (r.arranged_nil all).symm
  keys := rfl
  values := rfl
  terminal := rfl
  gathered := fun _ h => nomatch h

/-- A draft without a window follows a filter. -/
theorem follows_addFilter (h : Follows r all d stage) (hpaged : d.isPaged = false)
    {condition : Expr} (hadd : d.addFilter? table (some condition) = .ok d') :
    ∃ stage', stage.filter r condition = .ok stage' ∧ Follows r all d' stage' := by
  rw [addFilter?, addFilter_eq, map_eq_ok] at hadd
  obtain ⟨⟨c, values⟩, hc, rfl⟩ := hadd
  refine ⟨{ stage with rows := stage.rows.filter (r.holds c), values }, ?_, ?_⟩
  · rw [Stage.filter, h.values, hc]
    rfl
  · refine { h with rows := ?_, values := rfl, gathered := ?_ }
    · rw [h.rows, slice_of_not_isPaged hpaged, r.filter_arranged h.gathered hc]
      exact (slice_of_not_isPaged hpaged _).symm
    · intro joint hjoint
      obtain rfl := Option.some.inj hjoint
      cases hfilter : d.filter with
      | none => exact .single hc
      | some earlier => exact .and (h.gathered earlier hfilter) hc

/-- A draft without a window follows an ordering. -/
theorem follows_addKey (h : Follows r all d stage) (hpaged : d.isPaged = false)
    {operator : String} {direction : Direction} {key : Expr}
    (hadd : d.addKey table operator direction key = .ok d') :
    ∃ stage', stage.order r operator direction key = .ok stage' ∧ Follows r all d' stage' := by
  obtain ⟨text, htext, rfl⟩ := orderedText_of_addKey hadd
  refine ⟨{ stage with
    rows := r.sorted (stage.keys ++ [text]) stage.rows, keys := stage.keys ++ [text] }, ?_, ?_⟩
  · rw [Stage.order, htext]
    rfl
  · refine { h with rows := ?_, keys := by rw [h.keys] }
    rw [h.keys, h.rows, slice_of_not_isPaged hpaged, r.sorted_arranged]
    exact (slice_of_not_isPaged hpaged _).symm

/-- A draft follows a bound. -/
theorem follows_bound (h : Follows r all d stage) (n : UInt64) :
    Follows r all (d.bound n) { stage with rows := stage.rows.take n.toNat } := by
  refine { h with rows := ?_ }
  rw [h.rows, take_slice, taken?_bound]
  rfl

/-- A draft without a bound follows when rows are left out. -/
theorem follows_skip (h : Follows r all d stage) (htake : d.take = none)
    (hall : all.length ≤ maxCount.toNat) (n : UInt64) :
    Follows r all { d with skip := some (addCountsUpTo (d.skip.getD 0) n) }
      { stage with rows := stage.rows.drop n.toNat } := by
  refine { h with rows := ?_ }
  have htaken : d.taken? = none := by rw [taken?, htake]; rfl
  rw [h.rows, skipped_add, slice_min _ _ (Nat.le_trans (r.length_arranged_le ..) hall), htaken]
  change _ = slice _ d.taken? _
  rw [htaken]
  exact List.drop_drop

/-- A draft that asks for nothing yet follows when a row is asked for. -/
theorem Follows.ask (h : Follows r all d stage) :
    Follows r all { d with terminal := some .any } { stage with asks := true } :=
  { h with terminal := rfl }

/-- A draft follows an operator, which filters and sorts only as long as there is no window. -/
theorem follows_adds {op : Operator} (hop : op.asksForRows = true) (hadds : Adds table d op d')
    (h : Follows r all d stage) (hpaged : op.looksAtRows = true → d.isPaged = false)
    (hall : all.length ≤ maxCount.toNat) :
    ∃ stage', stage.perform r op = .ok stage' ∧ Follows r all d' stage' := by
  cases hadds with
  | filter hadd => exact follows_addFilter h (hpaged rfl) hadd
  | orderBy hadd | thenBy _ hadd => exact follows_addKey h (hpaged rfl) hadd
  | skip hcount htake =>
    refine ⟨_, ?_, follows_skip h htake hall _⟩
    rw [Stage.perform, hcount]
    rfl
  | take hcount =>
    refine ⟨_, ?_, follows_bound h _⟩
    rw [Stage.perform, hcount]
    rfl
  | first => exact ⟨_, rfl, follows_bound h 1⟩
  | @any condition _ hadd =>
    cases condition with
    | none =>
      cases hadd
      exact ⟨_, rfl, h.ask⟩
    | some e =>
      obtain ⟨stage₁, hstage, h₁⟩ := follows_addFilter h (hpaged rfl) hadd
      refine ⟨_, ?_, h₁.ask⟩
      rw [Stage.perform, hstage]
      rfl
  | count _ | aggregate _ => cases hop

/-- A window is there after an operator if it was there or if the operator asks for it. -/
theorem isPaged_adds {op : Operator} (h : Adds table d op d') (hd' : d'.isPaged = true) :
    d.isPaged = true ∨ op.pages = true := by
  cases hpages : op.pages with
  | true => exact .inr rfl
  | false =>
    obtain ⟨hskip, htake⟩ := window_of_not_pages h hpages
    rw [isPaged, hskip, htake] at hd'
    exact .inl hd'

/-- A draft says what has become of the rows, as long as no operator filters or sorts what is left
of a window. -/
theorem follows_run {operators : List Operator}
    (hops : ∀ op ∈ operators, op.asksForRows = true) (hlast : WindowLast operators)
    (hrun : operators.foldlM (Draft.apply table) d = .ok d') (h : Follows r all d stage)
    (hpaged : d.isPaged = true → ∀ op ∈ operators, op.looksAtRows = false)
    (hall : all.length ≤ maxCount.toNat) :
    ∃ stage', operators.foldlM (Stage.perform r) stage = .ok stage' ∧
      Follows r all d' stage' := by
  -- Once the draft has a window, no operator looks at the rows any more: this is `hpaged`.
  induction operators generalizing d stage with
  | nil =>
    cases hrun
    exact ⟨stage, rfl, h⟩
  | cons op rest ih =>
    rw [List.foldlM_cons, bind_eq_ok] at hrun
    obtain ⟨d₁, hstep, hrun⟩ := hrun
    obtain ⟨hop, hrest⟩ := List.pairwise_cons.1 hlast
    have hadds := (apply_eq_ok.1 hstep).2
    have hunpaged (hlooks : op.looksAtRows = true) : d.isPaged = false := by
      cases hd : d.isPaged with
      | false => rfl
      | true =>
        rw [hpaged hd op List.mem_cons_self] at hlooks
        cases hlooks
    obtain ⟨stage₁, hstage, h₁⟩ :=
      follows_adds (hops op List.mem_cons_self) hadds h hunpaged hall
    have hpaged₁ (hd₁ : d₁.isPaged = true) : ∀ later ∈ rest, later.looksAtRows = false := by
      intro later hlater
      rcases isPaged_adds hadds hd₁ with hd | hpages
      · exact hpaged hd later (List.mem_cons_of_mem op hlater)
      · exact hop later hlater hpages
    obtain ⟨stage', hstage', h'⟩ :=
      ih (fun later hlater => hops later (List.mem_cons_of_mem op hlater)) hrest hrun h₁ hpaged₁
    refine ⟨stage', ?_, h'⟩
    rw [List.foldlM_cons, hstage]
    exact hstage'

/-- A draft that says what has become of the rows answers with them. -/
theorem answer_of_follows (h : Follows r all d stage) {dialect : Dialect} {p : Paging}
    (hp : (d.select table).paging dialect = .ok p) (hall : all.length ≤ maxCount.toNat) :
    r.answer d p all = stage.answer := by
  have hrows (keys : List String) : p.rows (r.arranged d.filter keys all) =
      slice d.skipped d.taken? (r.arranged d.filter keys all) :=
    Select.rows_of_paging hp (Nat.le_trans (r.length_arranged_le ..) hall)
  have hterminal := h.terminal
  simp only [Reading.answer, Stage.answer, hrows, h.rows]
  cases hasks : stage.asks with
  | false =>
    rw [hasks] at hterminal
    have hkeys : d.orderingKeys = d.keys := by
      rw [orderingKeys, ordersRows, hterminal]
      cases d.keys <;> rfl
    rw [hkeys, hterminal]
    rfl
  | true =>
    -- Whether a row is left does not depend on the order of the rows.
    rw [hasks] at hterminal
    have hlength (keys : List String) :
        (slice d.skipped d.taken? (r.arranged d.filter keys all)).length =
          (slice d.skipped d.taken? (all.filter (r.satisfies d.filter))).length := by
      cases htaken : d.taken? <;>
        simp only [slice, List.length_drop, List.length_take, r.length_arranged]
    have hempty (keys : List String) :
        (slice d.skipped d.taken? (r.arranged d.filter keys all)).isEmpty =
          (slice d.skipped d.taken? (all.filter (r.satisfies d.filter))).isEmpty := by
      rw [Bool.eq_iff_iff, List.isEmpty_iff_length_eq_zero, List.isEmpty_iff_length_eq_zero,
        hlength]
    simp only [hterminal, if_true, hempty]

end

/-! ## Rearranged operators -/

/-- Operators that neither page nor ask for something in place of the rows do not look at the
window. -/
theorem run_withWindow (skip take : Option UInt64) {operators : List Operator}
    (hpages : ∀ op ∈ operators, op.pages = false)
    (hterminal : ∀ op ∈ operators, op.isTerminal = false) :
    operators.foldlM (Draft.apply table) (d.withWindow skip take) =
      (operators.foldlM (Draft.apply table) d).map (withWindow skip take) := by
  induction operators generalizing d with
  | nil => rfl
  | cons op rest ih =>
    rw [List.forall_mem_cons] at hpages hterminal
    rw [List.foldlM_cons, List.foldlM_cons, apply_withWindow _ _ hpages.1 hterminal.1]
    cases Draft.apply table d op with
    | error f => rfl
    | ok d₁ => exact ih hpages.2 hterminal.2

/-- Operators that do not page leave the window as it is. -/
theorem window_run {operators : List Operator} (hpages : ∀ op ∈ operators, op.pages = false)
    (h : operators.foldlM (Draft.apply table) d = .ok d') :
    d'.skip = d.skip ∧ d'.take = d.take := by
  induction operators generalizing d with
  | nil =>
    cases h
    exact ⟨rfl, rfl⟩
  | cons op rest ih =>
    rw [List.forall_mem_cons] at hpages
    rw [List.foldlM_cons, bind_eq_ok] at h
    obtain ⟨d₁, hop, h⟩ := h
    obtain ⟨hskip, htake⟩ := window_of_not_pages (apply_eq_ok.1 hop).2 hpages.1
    obtain ⟨hskip', htake'⟩ := ih hpages.2 h
    exact ⟨hskip'.trans hskip, htake'.trans htake⟩

/-- An operator that pages changes the window, and depends on nothing else. -/
theorem exists_withWindow_of_pages {op : Operator} (hpages : op.pages = true)
    (h : Adds table d op d') :
    ∃ skip take, d' = d.withWindow skip take ∧
      ∀ other : Draft, other.skip = d.skip → other.take = d.take →
        Adds table other op (other.withWindow skip take) := by
  cases h with
  | @skip count n hcount htake =>
    refine ⟨some (addCountsUpTo (d.skip.getD 0) n), d.take, rfl, fun other hskip htake' => ?_⟩
    rw [← hskip, ← htake']
    exact .skip hcount (htake'.trans htake)
  | @take count n hcount =>
    refine ⟨d.skip, (d.bound n).take, rfl, fun other hskip htake => ?_⟩
    rw [bound, ← hskip, ← htake]
    exact .take hcount
  | first =>
    refine ⟨d.skip, (d.bound 1).take, rfl, fun other hskip htake => ?_⟩
    rw [bound, ← hskip, ← htake]
    exact .first
  | _ => cases hpages

/-- Nothing follows a terminal. -/
theorem eq_nil_of_terminal {operators : List Operator} {terminal : Terminal}
    (hd : d.terminal = some terminal) (h : operators.foldlM (Draft.apply table) d = .ok d') :
    operators = [] := by
  cases operators with
  | nil => rfl
  | cons op rest =>
    rw [List.foldlM_cons, bind_eq_ok] at h
    obtain ⟨d₁, hstep, -⟩ := h
    rw [(apply_eq_ok.1 hstep).1] at hd
    cases hd

/-- Operators that filter and sort may be moved to the front without a change of the draft. -/
theorem run_parts {operators : List Operator} (hops : ∀ op ∈ operators, op.asksForRows = true)
    (h : operators.foldlM (Draft.apply table) d = .ok d') :
    ∃ d₀, (operators.flatMap Operator.front).foldlM (Draft.apply table) d = .ok d₀ ∧
      (operators.flatMap Operator.back).foldlM (Draft.apply table) d₀ = .ok d' := by
  induction operators generalizing d with
  | nil => exact ⟨d, rfl, h⟩
  | cons op rest ih =>
    rw [List.forall_mem_cons] at hops
    rw [List.foldlM_cons, bind_eq_ok] at h
    obtain ⟨d₁, hstep, h⟩ := h
    obtain ⟨hterminal, hadds⟩ := apply_eq_ok.1 hstep
    obtain ⟨d₂, hfront, hback⟩ := ih hops.2 h
    rw [List.flatMap_cons, List.flatMap_cons]
    cases op with
    | filter _ | orderBy _ _ | thenBy _ _ =>
      exact ⟨d₂, bind_eq_ok.2 ⟨d₁, hstep, hfront⟩, hback⟩
    | skip _ | take _ | first =>
      -- The rest filters and sorts without the new window, which is put in place behind it.
      obtain ⟨skip, take, rfl, hother⟩ := exists_withWindow_of_pages rfl hadds
      have hparts : ∀ part ∈ rest.flatMap Operator.front,
          part.pages = false ∧ part.isTerminal = false ∧ part.asksForRows = true := by
        intro part hpart
        obtain ⟨_, -, hpart⟩ := List.mem_flatMap.1 hpart
        exact Operator.of_mem_front hpart
      have hpages := fun part hpart => (hparts part hpart).1
      have hasked := fun part hpart => (hparts part hpart).2.1
      rw [run_withWindow skip take hpages hasked, map_eq_ok] at hfront
      obtain ⟨d₀, hfront, rfl⟩ := hfront
      obtain ⟨hskip, htake⟩ := window_run hpages hfront
      have hd₀ := terminal_run hfront hasked hterminal
      refine ⟨d₀, hfront, bind_eq_ok.2 ⟨_, ?_, hback⟩⟩
      exact apply_eq_ok.2 ⟨hd₀, hother d₀ hskip htake⟩
    | any condition =>
      cases hadds with
      | @any _ filtered hadd =>
        obtain rfl := eq_nil_of_terminal rfl h
        cases h
        have hasked : Adds table filtered (.any none) { filtered with terminal := some .any } :=
          .any rfl
        cases condition with
        | none =>
          cases hadd
          exact ⟨d, rfl, bind_eq_ok.2 ⟨_, hstep, rfl⟩⟩
        | some e =>
          have hfiltered := terminal_adds (.filter hadd) rfl hterminal
          exact ⟨filtered, bind_eq_ok.2 ⟨filtered, apply_eq_ok.2 ⟨hterminal, .filter hadd⟩, rfl⟩,
            bind_eq_ok.2 ⟨_, apply_eq_ok.2 ⟨hfiltered, hasked⟩, rfl⟩⟩
    | count _ | aggregate _ _ | select _ | groupBy _ => cases hops.1

end Draft

/-! ## Queries -/

/-- The query with its operators rearranged. -/
def rearrange (q : Query) : Query := { q with operators := rearranged q.operators }

variable {q : Query} {d : Draft}

/-- A query that asks for rows gathers the same draft when it is rearranged. -/
theorem draft_rearrange (hops : ∀ op ∈ q.operators, op.asksForRows = true) (h : q.draft = .ok d) :
    q.rearrange.draft = .ok d := by
  obtain ⟨d₀, hfront, hback⟩ := Draft.run_parts hops h
  change (_ ++ _ : List Operator).foldlM (Draft.apply q.table) Draft.empty = _
  rw [List.foldlM_append]
  exact bind_eq_ok.2 ⟨d₀, hfront, hback⟩

/-- As long as no operator filters or sorts what is left of a window, the selection that a draft has
gathered answers what the operators make of the rows. -/
theorem inOrder_eq_answer {operators : List Operator}
    (hops : ∀ op ∈ operators, op.asksForRows = true) (hlast : WindowLast operators)
    (hrun : operators.foldlM (Draft.apply table) Draft.empty = .ok d) {dialect : Dialect}
    {p : Paging} (hp : (d.select table).paging dialect = .ok p) (r : Reading table α)
    {rows : List α} (hrows : rows.length ≤ maxCount.toNat) :
    inOrder r operators rows = .ok (r.answer d p rows) := by
  have hempty (h : Draft.empty.isPaged = true) : ∀ op ∈ operators, op.looksAtRows = false := by
    cases h
  obtain ⟨stage, hstage, hfollows⟩ :=
    Draft.follows_run hops hlast hrun (Draft.follows_empty r rows) hempty hrows
  rw [inOrder, hstage, Draft.answer_of_follows hfollows hp hrows]
  rfl

/-- The statement of a query that asks for rows is also that of the rearranged query, and answers
what the rearranged operators make of the rows one after the other, as long as the number of rows is
a count.  It answers what the operators make of them as they are written, if none of them filters or
sorts what is left of a window. -/
theorem inOrder_of_statement {dialect : Dialect} {s : Statement}
    (hops : ∀ op ∈ q.operators, op.asksForRows = true) (hs : q.statement dialect = .ok s) :
    q.rearrange.statement dialect = .ok s ∧
      ∃ d p, q.draft = .ok d ∧ (d.select q.table).paging dialect = .ok p ∧
        s.text = d.asked ((d.select q.table).text p) ∧
        s.sources = (d.filter.map Condition.source).toList ∧ s.limiter = p.limiter ∧
        ∀ (α : Type) (r : Reading q.table α) (rows : List α), rows.length ≤ maxCount.toNat →
          inOrder r (rearranged q.operators) rows = .ok (r.answer d p rows) ∧
            (WindowLast q.operators → inOrder r q.operators rows = .ok (r.answer d p rows)) := by
  obtain ⟨d, hdraft, hstatement⟩ := bind_eq_ok.1 hs
  have hrearranged := draft_rearrange hops hdraft
  obtain ⟨p, hp, htext, hsources, hlimiter⟩ := Draft.statement_eq_ok hstatement
  have hsame : q.rearrange.statement dialect = .ok s :=
    bind_eq_ok.2 ⟨d, hrearranged, hstatement⟩
  refine ⟨hsame, d, p, hdraft, hp, htext, hsources, hlimiter, ?_⟩
  intro α r rows hrows
  refine ⟨?_, fun hlast => inOrder_eq_answer hops hlast hdraft hp r hrows⟩
  exact inOrder_eq_answer (asksForRows_rearranged hops) (windowLast_rearranged q.operators)
    hrearranged hp r hrows

/-! ## Ages -/

/-- A table of people and their ages. -/
def agesTable : Table where
  name := "People"
  columns := [⟨"Age", "Age", .int32, none, none, .application⟩]

/-- The age of a person. -/
def age : Expr := .field (.row 0) "Age" .int32

/-- How a database reads conditions that all ask for an age above a constant, and orderings by age.
A row is an age. -/
def agesReading : Reading agesTable Int where
  holds c row := c.values.all fun v =>
    match v with
    | .int32 n => decide (n.toInt < row)
    | _ => false
  le key a b := if key = "Age DESC" then decide (b ≤ a) else decide (a ≤ b)
  holds_and _ _ _ := List.all_append
  orders key := by
    by_cases hkey : key = "Age DESC"
    · simp only [hkey, if_true]
      exact ⟨fun a b => by simp; omega, fun a b c => by simp; omega⟩
    · simp only [hkey, if_false]
      exact ⟨fun a b => by simp; omega, fun a b c => by simp; omega⟩

/-- Of the people above five the oldest, without the first of them. -/
def oldestButOne : Query where
  table := agesTable
  operators :=
    [.filter (.binary (.compare .gt) age (.value (.int32 5))), .orderBy .descending age,
      .skip (.value (.int32 1)), .take (.value (.int32 2))]

/-- The people above five among the first two. -/
def firstTwoAbove : Query where
  table := agesTable
  operators :=
    [.take (.value (.int32 2)), .filter (.binary (.compare .gt) age (.value (.int32 5)))]

/-- Of the ages seven, three, eleven and nine, the statement answers with nine and seven. -/
theorem inOrder_of_statement_oldestButOne :
    (∀ op ∈ oldestButOne.operators, op.asksForRows = true) ∧ WindowLast oldestButOne.operators ∧
      ∃ s d p, oldestButOne.statement .top = .ok s ∧
        s.text = "SELECT TOP 3 Age FROM People WHERE (Age > @0) ORDER BY Age DESC" ∧
        s.limiter = some ⟨1, some 2⟩ ∧ oldestButOne.draft = .ok d ∧
        agesReading.answer d p [7, 3, 11, 9] = .rows [9, 7] ∧
        inOrder agesReading oldestButOne.operators [7, 3, 11, 9] = .ok (.rows [9, 7]) := by
  have hops : ∀ op ∈ oldestButOne.operators, op.asksForRows = true := by decide
  have hlast : WindowLast oldestButOne.operators := by decide
  have hs : oldestButOne.statement .top = .ok
      { text := "SELECT TOP 3 Age FROM People WHERE (Age > @0) ORDER BY Age DESC"
        sources := [⟨"(Age > @0)", [.int32 5]⟩]
        limiter := some ⟨1, some 2⟩ } := by
    rfl
  have hsorted : agesReading.sorted ["Age DESC"] [7, 11, 9] = [11, 9, 7] := by
    simp [Reading.sorted, List.mergeSort, List.MergeSort.Internal.splitInTwo, byKeys, agesReading]
  have hinOrder : inOrder agesReading oldestButOne.operators [7, 3, 11, 9] =
      .ok (.rows (((agesReading.sorted ["Age DESC"] [7, 11, 9]).drop 1).take 2)) := by
    rfl
  rw [hsorted] at hinOrder
  obtain ⟨-, d, p, hdraft, -, -, -, -, hanswer⟩ := inOrder_of_statement hops hs
  have hrows := (hanswer Int agesReading [7, 3, 11, 9] (by decide)).2 hlast
  exact ⟨hops, hlast, _, d, p, hs, rfl, rfl, hdraft, Except.ok.inj (hrows.symm.trans hinOrder),
    hinOrder⟩

/-- The first two of the ages three, seven, nine and eleven, of which seven is above five: the
statement answers with the first two ages above five instead. -/
theorem inOrder_firstTwoAbove :
    ∃ s d p, firstTwoAbove.statement .top = .ok s ∧
      s.text = "SELECT TOP 2 Age FROM People WHERE (Age > @0)" ∧ firstTwoAbove.draft = .ok d ∧
      (d.select agesTable).paging .top = .ok p ∧
      inOrder agesReading firstTwoAbove.operators [3, 7, 9, 11] = .ok (.rows [7]) ∧
      agesReading.answer d p [3, 7, 9, 11] = .rows [7, 9] := by
  refine ⟨_, _, _, rfl, rfl, rfl, rfl, rfl, ?_⟩
  change Answer.rows ((agesReading.sorted [] [7, 9, 11]).take 2) = _
  rw [agesReading.sorted_nil]
  rfl

end RowQuery.Query
