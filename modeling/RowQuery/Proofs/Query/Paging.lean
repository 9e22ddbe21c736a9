import RowQuery.Proofs.Query.Counts
import RowQuery.Proofs.Sql.PagedRows

/-!
# Paged queries

The operators of a query that leave out rows at the start or keep some there are gathered into one
window, which the dialects write in three ways.  This module says that every way returns the rows
that the operators ask for one after the other, and which paged queries are refused.

Main results:

- Definition {lit}`paged`: what the paging operators of a query make of rows.
- Theorem {lit}`window_draft`: a draft holds the window of its operators.
- Theorem {lit}`Draft.exists_run_iff`: operators are accepted if they are without the paging ones,
  and no rows are left out once their number is bounded.
- Theorem {lit}`pagesAsAsked`: all dialects page alike and page what was asked.
-/

namespace RowQuery.Query

open Outcome
open Sql

variable {α : Type}

/-! ## Counts -/

/-- The number that an expression stands for, if it folds to an integer constant that is not
negative. -/
def constantCount? (e : Expr) : Option Nat :=
  e.foldLocal.toOption.bind fun e' => e'.integerConstant?.bind Int.toNat?

/-- An integer constant that is not negative is recorded, and the count of what it records is the
integer. -/
theorem count_of_integerConstant? {e : Expr} {n : Nat} (h : e.integerConstant? = some ↑n) :
    ∃ v c, e.recorded = [v] ∧ v.count = .ok c ∧ c.toNat = n := by
  have hcount (v : Value) {k : Int64} (hv : v.integer? = some k) (hk : k.toInt = n) :
      ∃ c, v.count = .ok c ∧ c.toNat = n := by
    have hle : 0 ≤ k.toInt := hk ▸ Int.natCast_nonneg n
    refine ⟨k.toUInt64, ?_, ?_⟩
    · simp only [Value.count, hv]
      exact if_pos hle
    · rw [Int64.toNat_toUInt64_of_le (Int64.le_iff_toInt_le.2 hle)]
      exact congrArg Int.toNat hk
  cases e with
  | value v =>
    cases v with
    | int16 m =>
      obtain ⟨c, hc⟩ := hcount (.int16 m) rfl (m.toInt_toInt64.trans (Option.some.inj h))
      exact ⟨.int16 m, c, rfl, hc⟩
    | int32 m =>
      obtain ⟨c, hc⟩ := hcount (.int32 m) rfl (m.toInt_toInt64.trans (Option.some.inj h))
      exact ⟨.int32 m, c, rfl, hc⟩
    | int64 m =>
      obtain ⟨c, hc⟩ := hcount (.int64 m) rfl (Option.some.inj h)
      exact ⟨.int64 m, c, rfl, hc⟩
    | _ => cases h
  | _ => cases h

/-- An expression that stands for a number stands for it in every query. -/
theorem countOf_of_constantCount? (table : Table) {e : Expr} {n : Nat}
    (h : constantCount? e = some n) : ∃ c, Draft.countOf table e = .ok c ∧ c.toNat = n := by
  unfold constantCount? at h
  cases hfold : e.foldLocal with
  | error f => simp [hfold, Except.toOption] at h
  | ok e' =>
    simp only [hfold, Except.toOption, Option.bind_some, Option.bind_eq_some_iff,
      Int.mem_toNat?] at h
    obtain ⟨k, hk, rfl⟩ := h
    obtain ⟨v, c, hrecorded, hv, hc⟩ := count_of_integerConstant? hk
    exact ⟨c, Draft.countOf_eq_ok.2
      ⟨e', v, hfold, Expr.renderable_of_integerConstant? hk, hrecorded, hv⟩, hc⟩

/-! ## Operators that page -/

namespace Operator

/-- The operator leaves out rows at the start. -/
def skips : Operator → Bool
  | skip _ => true
  | _ => false

/-- The operator bounds the number of rows. -/
def bounds : Operator → Bool
  | take _ => true
  | first => true
  | _ => false

/-- The operator asks for a window of the rows. -/
def pages (op : Operator) : Bool := op.skips || op.bounds

/-- The operator orders the rows. -/
def orders : Operator → Bool
  | orderBy _ _ => true
  | thenBy _ _ => true
  | _ => false

/-- The operator asks for something in place of the rows. -/
def isTerminal : Operator → Bool
  | count _ => true
  | any _ => true
  | aggregate _ _ => true
  | _ => false

/-- The number of rows that the operator names, if it names one, is an integer constant that is not
negative. -/
def hasConstantCount : Operator → Bool
  | skip n => (constantCount? n).isSome
  | take n => (constantCount? n).isSome
  | _ => true

/-- What the operator makes of rows that are filtered and ordered already. -/
def page (op : Operator) (rows : List α) : List α :=
  match op with
  | skip n => rows.drop ((constantCount? n).getD 0)
  | take n => rows.take ((constantCount? n).getD 0)
  | first => rows.take 1
  | _ => rows

/-- The number of rows that the operator leaves out. -/
def skipped : Operator → Nat
  | skip n => (constantCount? n).getD 0
  | _ => 0

/-- The bound that the operator sets. -/
def taken? : Operator → Option Nat
  | take n => constantCount? n
  | first => some 1
  | _ => none

end Operator

/-- The number of rows that operators leave out together. -/
def skippedBy (operators : List Operator) : Nat :=
  (operators.map Operator.skipped).sum

/-- The least bound that operators set. -/
def takenBy? (operators : List Operator) : Option Nat :=
  (operators.filterMap Operator.taken?).min?

/-- What the paging operators of a query make of rows, one after the other. -/
def paged (q : Query) (rows : List α) : List α :=
  q.operators.foldl (fun rows op => op.page rows) rows

/-- No rows are left out once their number is bounded. -/
def SkipsFirst (operators : List Operator) : Prop :=
  operators.Pairwise fun op later => op.bounds = true → later.skips = false

/-- The least of some numbers, then of more numbers, is the least of all. -/
theorem min?_toList_append (ns ms : List Nat) : (ns.min?.toList ++ ms).min? = (ns ++ ms).min? := by
  cases ns with
  | nil => rfl
  | cons n ns =>
    simp only [List.min?_cons', Option.toList_some, List.cons_append, List.nil_append,
      List.foldl_append]

/-- A bound on a slice is compared with the bound of the slice. -/
theorem take_slice (skip : Nat) (take : Option Nat) (n : Nat) (rows : List α) :
    (slice skip take rows).take n = slice skip (take.toList ++ [n]).min? rows := by
  cases take with
  | none => rfl
  | some m =>
    simp only [slice, List.take_take, Option.toList_some, List.singleton_append, List.min?_cons',
      List.foldl_cons, List.foldl_nil]
    rw [Nat.min_comm]

/-- An operator makes a slice of a slice. -/
theorem page_slice {op : Operator} (hcount : op.hasConstantCount = true) (skip : Nat)
    {take : Option Nat} (hskips : take.isSome = true → op.skips = false) (rows : List α) :
    op.page (slice skip take rows) =
      slice (skip + op.skipped) (take.toList ++ op.taken?.toList).min? rows := by
  have hkept : slice skip take rows = slice (skip + 0) (take.toList ++ []).min? rows := by
    cases take <;> rfl
  cases op with
  | skip n =>
    have htake : take = none := by
      cases take with
      | none => rfl
      | some m => cases hskips rfl
    rw [htake]
    exact List.drop_drop
  | take n =>
    obtain ⟨k, hk⟩ := Option.isSome_iff_exists.1 hcount
    simp only [Operator.page, Operator.taken?, hk, Option.getD_some, Option.toList_some]
    exact take_slice skip take k rows
  | first => exact take_slice skip take 1 rows
  | _ => exact hkept

/-- Operators make a slice of a slice, as long as they leave out no rows of a bounded number. -/
theorem foldl_page {operators : List Operator}
    (hcounts : ∀ op ∈ operators, op.hasConstantCount = true) (hfirst : SkipsFirst operators)
    (skip : Nat) {take : Option Nat}
    (hskips : take.isSome = true → ∀ op ∈ operators, op.skips = false) (rows : List α) :
    operators.foldl (fun rows op => op.page rows) (slice skip take rows) =
      slice (skip + skippedBy operators)
        (take.toList ++ operators.filterMap Operator.taken?).min? rows := by
  induction operators generalizing skip take with
  | nil => cases take <;> rfl
  | cons op rest ih =>
    obtain ⟨hop, hrest⟩ := List.pairwise_cons.1 hfirst
    have hstep := page_slice (hcounts op List.mem_cons_self) skip
      (fun htake => hskips htake op List.mem_cons_self) rows
    have hbounded (h : (take.toList ++ op.taken?.toList).min?.isSome = true) :
        ∀ later ∈ rest, later.skips = false := by
      intro later hlater
      cases take with
      | some m => exact hskips rfl later (List.mem_cons_of_mem op hlater)
      | none =>
        apply hop later hlater
        cases op with
        | take _ | first => rfl
        | _ => cases h
    have hlater := ih (fun later h => hcounts later (List.mem_cons_of_mem op h)) hrest
      (skip + op.skipped) hbounded
    have hskipped : op.skipped + skippedBy rest = skippedBy (op :: rest) := by
      rw [skippedBy, skippedBy, List.map_cons, List.sum_cons]
    have htaken : op.taken?.toList ++ rest.filterMap Operator.taken? =
        (op :: rest).filterMap Operator.taken? := by
      cases h : op.taken? with
      | none => rw [List.filterMap_cons_none h]; rfl
      | some n => rw [List.filterMap_cons_some h]; rfl
    rw [List.foldl_cons, hstep, hlater, min?_toList_append, List.append_assoc, Nat.add_assoc,
      hskipped, htaken]

/-- The operators of a query make a slice of the rows. -/
theorem paged_eq_slice {q : Query} (hcounts : ∀ op ∈ q.operators, op.hasConstantCount = true)
    (hfirst : SkipsFirst q.operators) (rows : List α) :
    q.paged rows = slice (skippedBy q.operators) (takenBy? q.operators) rows := by
  have hunbounded : (none : Option Nat).isSome = true → ∀ op ∈ q.operators, op.skips = false := by
    intro h
    cases h
  have hslice := foldl_page hcounts hfirst 0 hunbounded rows
  rwa [Nat.zero_add] at hslice

/-- The counts that operators name are the constants that their expressions stand for. -/
theorem map_counts (table : Table) {operators : List Operator}
    (hcounts : ∀ op ∈ operators, op.hasConstantCount = true) :
    (Bounding.skip.counts table operators).map UInt64.toNat =
        (operators.filter Operator.skips).map Operator.skipped ∧
      (Bounding.take.counts table operators).map UInt64.toNat =
        operators.filterMap Operator.taken? := by
  induction operators with
  | nil => exact ⟨rfl, rfl⟩
  | cons op rest ih =>
    rw [List.forall_mem_cons] at hcounts
    obtain ⟨hskips, htakes⟩ := ih hcounts.2
    unfold Bounding.counts at hskips htakes ⊢
    cases op with
    | skip e =>
      obtain ⟨n, hn⟩ := Option.isSome_iff_exists.1 hcounts.1
      obtain ⟨c, hc, rfl⟩ := countOf_of_constantCount? table hn
      have hcount : Bounding.skip.count? table (.skip e) = some c := by
        rw [Bounding.count?, if_pos rfl, hc]
        rfl
      have hskipped : (Operator.skip e).skipped = c.toNat := by
        rw [Operator.skipped, hn, Option.getD_some]
      refine ⟨?_, htakes⟩
      rw [List.filterMap_cons_some hcount, List.filter_cons_of_pos rfl, List.map_cons,
        List.map_cons, hskips, hskipped]
    | take e =>
      obtain ⟨n, hn⟩ := Option.isSome_iff_exists.1 hcounts.1
      obtain ⟨c, hc, rfl⟩ := countOf_of_constantCount? table hn
      have hcount : Bounding.take.count? table (.take e) = some c := by
        rw [Bounding.count?, if_pos rfl, hc]
        rfl
      have htaken : (Operator.take e).taken? = some c.toNat := hn
      refine ⟨hskips, ?_⟩
      rw [List.filterMap_cons_some hcount, List.filterMap_cons_some htaken, List.map_cons, htakes]
    | first => exact ⟨hskips, congrArg (1 :: ·) htakes⟩
    | _ => exact ⟨hskips, htakes⟩

/-- Operators leave out what those leave out that leave out rows. -/
theorem sum_filter_skips (operators : List Operator) :
    ((operators.filter Operator.skips).map Operator.skipped).sum = skippedBy operators := by
  induction operators with
  | nil => rfl
  | cons op rest ih =>
    unfold skippedBy at ih ⊢
    rw [List.map_cons, List.sum_cons, ← ih]
    cases op with
    | skip e => rfl
    | _ => exact (Nat.zero_add _).symm

/-- The least of several counts has the least size. -/
theorem toNat_min? (counts : List UInt64) :
    counts.min?.map UInt64.toNat = (counts.map UInt64.toNat).min? := by
  cases counts with
  | nil => rfl
  | cons n rest =>
    simp only [List.min?_cons', Option.map_some, List.map_cons, List.foldl_map]
    exact congrArg some
      (List.foldl_hom UInt64.toNat fun a b => (toNat_min_count a b).symm).symm

/-! ## Keys -/

/-- The text of the ordering key that an operator declares. -/
def Operator.keyText? (table : Table) (op : Operator) : Option (Except Fault String) :=
  match op with
  | orderBy direction key => some (orderedText table op.name direction key)
  | thenBy direction key => some (orderedText table op.name direction key)
  | _ => none

/-- The texts of the ordering keys that operators declare, in the order of their declaration. -/
def keyTexts (table : Table) (operators : List Operator) : Except Fault (List String) :=
  (operators.filterMap (·.keyText? table)).mapM id

namespace Draft

variable {table : Table} {d d' : Draft}

/-- An operator adds the key that it declares. -/
theorem keys_adds {op : Operator} (h : Adds table d op d') :
    ∃ keys, (op.keyText? table).toList.mapM id = .ok keys ∧ d'.keys = d.keys ++ keys ∧
      (keys = [] ↔ op.orders = false) := by
  have hkept {d' : Draft} (hkeys : d'.keys = d.keys) : d'.keys = d.keys ++ [] := by
    rw [hkeys, List.append_nil]
  cases h with
  | filter h | count h | any h =>
    obtain ⟨_, _, rfl⟩ := eq_of_addFilter? h
    exact ⟨[], rfl, hkept rfl, by simp [Operator.orders]⟩
  | orderBy h | thenBy _ h =>
    obtain ⟨text, htext, rfl⟩ := orderedText_of_addKey h
    refine ⟨[text], ?_, rfl, by simp [Operator.orders]⟩
    simp only [Operator.keyText?, htext]
    rfl
  | skip _ _ | take _ | first | aggregate _ =>
    exact ⟨[], rfl, hkept rfl, by simp [Operator.orders]⟩

/-- Operators add the keys that they declare, in the order of their declaration. -/
theorem keys_run {operators : List Operator}
    (h : operators.foldlM (Draft.apply table) d = .ok d') :
    ∃ keys, keyTexts table operators = .ok keys ∧ d'.keys = d.keys ++ keys ∧
      (keys = [] ↔ ∀ op ∈ operators, op.orders = false) := by
  induction operators generalizing d with
  | nil =>
    cases h
    exact ⟨[], rfl, (List.append_nil _).symm, by simp⟩
  | cons op rest ih =>
    rw [List.foldlM_cons, bind_eq_ok] at h
    obtain ⟨d₁, hop, h⟩ := h
    obtain ⟨first, hfirst, hd₁, hfirstNil⟩ := keys_adds (apply_eq_ok.1 hop).2
    obtain ⟨others, hothers, hd', hothersNil⟩ := ih h
    refine ⟨first ++ others, ?_, ?_, ?_⟩
    · have hsplit : (op :: rest).filterMap (·.keyText? table) =
          (op.keyText? table).toList ++ rest.filterMap (·.keyText? table) := by
        cases hkey : op.keyText? table with
        | none => rw [List.filterMap_cons_none hkey]; rfl
        | some key => rw [List.filterMap_cons_some hkey]; rfl
      rw [keyTexts, hsplit, List.mapM_append, hfirst]
      exact bind_eq_ok.2 ⟨first, rfl, bind_eq_ok.2 ⟨others, hothers, rfl⟩⟩
    · rw [hd', hd₁, List.append_assoc]
    · rw [List.append_eq_nil_iff, hfirstNil, hothersNil, List.forall_mem_cons]

/-! ## Windows -/

/-- The number of rows that a draft leaves out. -/
def skipped (d : Draft) : Nat := (d.skip.map UInt64.toNat).getD 0

/-- The bound on the number of rows that a draft has gathered. -/
def taken? (d : Draft) : Option Nat := d.take.map UInt64.toNat

/-- A bound is compared with the one that a draft holds. -/
theorem taken?_bound (d : Draft) (n : UInt64) :
    (d.bound n).taken? = (d.taken?.toList ++ [n.toNat]).min? := by
  unfold taken? bound
  cases htake : d.take with
  | none => rfl
  | some m => simp [toNat_min_count]

/-- More rows are left out, though not past the greatest count. -/
theorem skipped_add (d : Draft) (n : UInt64) :
    ({ d with skip := some (addCountsUpTo (d.skip.getD 0) n) } : Draft).skipped =
      min (d.skipped + n.toNat) maxCount.toNat := by
  have hd : (d.skip.getD 0).toNat = d.skipped := by
    unfold skipped
    cases d.skip <;> rfl
  rw [← hd]
  exact toNat_addCountsUpTo _ n

/-- An operator that does not page leaves the window as it is. -/
theorem window_of_not_pages {op : Operator} (h : Adds table d op d') (hpages : op.pages = false) :
    d'.skip = d.skip ∧ d'.take = d.take := by
  cases h with
  | filter h | count h | any h =>
    obtain ⟨_, _, rfl⟩ := eq_of_addFilter? h
    exact ⟨rfl, rfl⟩
  | orderBy h | thenBy _ h =>
    obtain ⟨_, _, rfl⟩ := orderedText_of_addKey h
    exact ⟨rfl, rfl⟩
  | aggregate _ => exact ⟨rfl, rfl⟩
  | skip _ _ | take _ | first => cases hpages

/-! ## Acceptance -/

/-- The draft with another window. -/
def withWindow (skip take : Option UInt64) (d : Draft) : Draft := { d with skip, take }

/-- The draft without its window. -/
def unpaged (d : Draft) : Draft := { d with skip := none, take := none }

/-- A condition does not look at the window. -/
theorem addFilter?_withWindow (skip take : Option UInt64) (condition : Option Expr) :
    (d.withWindow skip take).addFilter? table condition =
      (d.addFilter? table condition).map (withWindow skip take) := by
  cases condition with
  | none => rfl
  | some e =>
    simp only [addFilter?, addFilter_eq, map_map]
    rfl

/-- A key does not look at the window. -/
theorem addKey_withWindow (skip take : Option UInt64) (operator : String) (direction : Direction)
    (key : Expr) :
    (d.withWindow skip take).addKey table operator direction key =
      (d.addKey table operator direction key).map (withWindow skip take) := by
  unfold addKey
  cases keyText table operator key with
  | error f => rfl
  | ok text => rfl

/-- An operator that neither pages nor asks for something in place of the rows does not look at the
window. -/
theorem apply_withWindow (skip take : Option UInt64) {op : Operator} (hpages : op.pages = false)
    (hterminal : op.isTerminal = false) :
    Draft.apply table (d.withWindow skip take) op =
      (Draft.apply table d op).map (withWindow skip take) := by
  cases hasked : d.terminal with
  | some terminal =>
    have hwindow : (d.withWindow skip take).terminal = some terminal := hasked
    simp only [Draft.apply, hasked, hwindow]
    rfl
  | none =>
    have hwindow : (d.withWindow skip take).terminal = none := hasked
    simp only [Draft.apply, hasked, hwindow]
    cases op with
    | filter condition => exact addFilter?_withWindow skip take (some condition)
    | orderBy direction key => exact addKey_withWindow skip take _ direction key
    | thenBy direction key =>
      simp only [addOperator]
      change (if d.keys.isEmpty then _ else _) = _
      split
      · rfl
      · exact addKey_withWindow skip take _ direction key
    | select _ | groupBy _ => rfl
    | skip _ | take _ | first => cases hpages
    | count _ | any _ | aggregate _ _ => cases hterminal

/-- Without a terminal operator, nothing is asked for in place of the rows. -/
theorem terminal_adds {op : Operator} (h : Adds table d op d') (hop : op.isTerminal = false)
    (hd : d.terminal = none) : d'.terminal = none := by
  cases h with
  | filter h =>
    obtain ⟨_, _, rfl⟩ := eq_of_addFilter? h
    exact hd
  | orderBy h | thenBy _ h =>
    obtain ⟨_, _, rfl⟩ := orderedText_of_addKey h
    exact hd
  | skip _ _ | take _ | first => exact hd
  | count _ | any _ | aggregate _ => cases hop

/-- Without terminal operators, nothing is asked for in place of the rows. -/
theorem terminal_run {operators : List Operator}
    (h : operators.foldlM (Draft.apply table) d = .ok d')
    (hops : ∀ op ∈ operators, op.isTerminal = false) (hd : d.terminal = none) :
    d'.terminal = none := by
  induction operators generalizing d with
  | nil =>
    cases h
    exact hd
  | cons op rest ih =>
    rw [List.foldlM_cons, bind_eq_ok] at h
    obtain ⟨d₁, hop, h⟩ := h
    exact ih h (fun later hlater => hops later (List.mem_cons_of_mem op hlater))
      (terminal_adds (apply_eq_ok.1 hop).2 (hops op List.mem_cons_self) hd)

/-- An operator that pages is accepted by a draft without a terminal if it leaves out no rows of a
bounded number.  It changes nothing but the window, which is bounded then if it was or if the
operator bounds it. -/
theorem exists_apply_of_pages (table : Table) {op : Operator} (hpages : op.pages = true)
    (hcount : op.hasConstantCount = true) (hd : d.terminal = none)
    (hfront : d.take.isSome = true → op.skips = false) :
    ∃ d', Draft.apply table d op = .ok d' ∧ d'.unpaged = d.unpaged ∧
      d'.take.isSome = (d.take.isSome || op.bounds) := by
  cases op with
  | skip n =>
    obtain ⟨k, hk⟩ := Option.isSome_iff_exists.1 hcount
    obtain ⟨c, hc, -⟩ := countOf_of_constantCount? table hk
    have htake : d.take = none := by
      cases htake : d.take with
      | none => rfl
      | some m => cases hfront (by rw [htake]; rfl)
    exact ⟨_, apply_eq_ok.2 ⟨hd, .skip hc htake⟩, rfl, (Bool.or_false _).symm⟩
  | take n =>
    obtain ⟨k, hk⟩ := Option.isSome_iff_exists.1 hcount
    obtain ⟨c, hc, -⟩ := countOf_of_constantCount? table hk
    exact ⟨_, apply_eq_ok.2 ⟨hd, .take hc⟩, rfl, (Bool.or_true _).symm⟩
  | first => exact ⟨_, apply_eq_ok.2 ⟨hd, .first⟩, rfl, (Bool.or_true _).symm⟩
  | _ => cases hpages

/-- Rows of a bounded number are not left out. -/
theorem skips_eq_false_of_apply {op : Operator} (h : Draft.apply table d op = .ok d')
    (hbounded : d.take.isSome = true) : op.skips = false := by
  cases (apply_eq_ok.1 h).2 with
  | skip _ htake =>
    rw [htake] at hbounded
    cases hbounded
  | _ => rfl

/-- Operators are accepted if they are without the paging ones, and no rows are left out once their
number is bounded. -/
theorem exists_run_iff {operators : List Operator}
    (hops : ∀ op ∈ operators, op.isTerminal = false)
    (hcounts : ∀ op ∈ operators, op.hasConstantCount = true) (hd : d.terminal = none) :
    (∃ d', operators.foldlM (Draft.apply table) d = .ok d') ↔
      (∃ d₀, (operators.filter (!·.pages)).foldlM (Draft.apply table) d.unpaged = .ok d₀) ∧
        (d.take.isSome = true → ∀ op ∈ operators, op.skips = false) ∧ SkipsFirst operators := by
  induction operators generalizing d with
  | nil => exact ⟨fun _ => ⟨⟨_, rfl⟩, by simp, List.Pairwise.nil⟩, fun _ => ⟨d, rfl⟩⟩
  | cons op rest ih =>
    have hrest : ∀ later ∈ rest, later.isTerminal = false :=
      fun later hlater => hops later (List.mem_cons_of_mem op hlater)
    have hrestCounts : ∀ later ∈ rest, later.hasConstantCount = true :=
      fun later hlater => hcounts later (List.mem_cons_of_mem op hlater)
    have hterminal := hops op List.mem_cons_self
    rw [SkipsFirst, List.pairwise_cons, List.forall_mem_cons]
    cases hpages : op.pages with
    | false =>
      obtain ⟨hskips, hbounds⟩ := Bool.or_eq_false_iff.1 hpages
      have hunpaged : Draft.apply table d.unpaged op = (Draft.apply table d op).map unpaged :=
        apply_withWindow none none hpages hterminal
      rw [List.filter_cons_of_pos (by simp [hpages])]
      simp only [List.foldlM_cons, hunpaged, hskips, hbounds]
      cases hstep : Draft.apply table d op with
      | error f => simp [bind_eq_ok, Except.map]
      | ok d₁ =>
        have hadds := (apply_eq_ok.1 hstep).2
        have hlater := ih hrest hrestCounts (terminal_adds hadds hterminal hd)
        rw [(window_of_not_pages hadds hpages).2] at hlater
        simpa [bind_eq_ok, Except.map, SkipsFirst] using hlater
    | true =>
      rw [List.filter_cons_of_neg (by simp [hpages])]
      by_cases hfront : d.take.isSome = true → op.skips = false
      · obtain ⟨d₁, hstep, hunpaged, hbounded⟩ :=
          exists_apply_of_pages table hpages (hcounts op List.mem_cons_self) hd hfront
        have hlater := ih hrest hrestCounts
          (terminal_adds (apply_eq_ok.1 hstep).2 hterminal hd)
        rw [hunpaged, hbounded, Bool.or_eq_true] at hlater
        rw [List.foldlM_cons, hstep]
        refine hlater.trans ⟨?_, ?_⟩
        · rintro ⟨hplain, hskips, hpairs⟩
          exact ⟨hplain, fun h => ⟨hfront h, hskips (.inl h)⟩,
            fun later hmem h => hskips (.inr h) later hmem, hpairs⟩
        · rintro ⟨hplain, hskips, hop, hpairs⟩
          exact ⟨hplain, fun h => h.elim (fun h => (hskips h).2) fun h later hmem =>
            hop later hmem h, hpairs⟩
      · constructor
        · rintro ⟨d', hrun⟩
          rw [List.foldlM_cons, bind_eq_ok] at hrun
          obtain ⟨d₁, hstep, -⟩ := hrun
          exact absurd (skips_eq_false_of_apply hstep) hfront
        · rintro ⟨-, hskips, -⟩
          exact absurd (fun h => (hskips h).1) hfront

/-- A draft without a terminal has a statement if it leaves out rows only with keys, and if the sum
of its counts is a count unless the statement has a place for each. -/
theorem exists_statement_iff {dialect : Dialect} (hd : d.terminal = none) :
    (∃ s, d.statement table dialect = .ok s) ↔
      (d.skip.isSome = true → d.keys ≠ [] ∧
        (dialect = .offsetFetch ∨ ∀ n ∈ d.taken?, d.skipped + n ≤ maxCount.toNat)) := by
  have hselect : d.statement table dialect = (d.select table).statement dialect := by
    rw [Draft.statement, hd]
  have hordering : (d.select table).ordering.isSome = true ↔ d.keys ≠ [] := by
    cases hkeys : d.keys <;> simp [select, ordersRows, hd, hkeys]
  rw [hselect, Select.statement, exists_bind_pure_eq_ok, Select.exists_paging_iff]
  change (∀ skip ∈ d.skip, _ ∧ (_ ∨ ∀ n ∈ d.take, _)) ↔ _
  rw [hordering]
  unfold skipped taken?
  cases d.skip with
  | none => simp
  | some skip => cases d.take <;> simp

end Draft

/-! ## Queries -/

/-- The query without the operators that page. -/
def unpaged (q : Query) : Query :=
  { q with operators := q.operators.filter (!·.pages) }

/-- All dialects page alike and page what was asked. -/
structure PagesAsAsked (q : Query) : Prop where
  /-- The window that a statement encodes selects the rows that the operators ask for one after the
  other. -/
  window : ∀ (dialect : Dialect) (s : Statement), q.statement dialect = .ok s →
    ∃ d p, q.draft = .ok d ∧ (d.select q.table).paging dialect = .ok p ∧
      s.text = (d.select q.table).text p ∧ s.limiter = p.limiter ∧
      ∀ (α : Type) (rows : List α), rows.length ≤ maxCount.toNat → p.rows rows = q.paged rows
  /-- A statement that leaves out rows orders them by the declared keys in the order of their
  declaration. -/
  ordered : ∀ (dialect : Dialect) (s : Statement), q.statement dialect = .ok s →
    q.operators.any Operator.skips = true →
      ∃ keys, keyTexts q.table q.operators = .ok keys ∧
        Contains (Clause.ordering.write (", ".intercalate keys)) s.text
  /-- No dialect leaves out rows without an ordering. -/
  unordered : q.operators.any Operator.skips = true → q.operators.any Operator.orders = false →
    ∀ dialect : Dialect,
      q.statement dialect = q.draft >>= fun _ => .error (Fault.invalidQuery .skipWithoutOrder)
  /-- Paging makes a query refused only if rows of a bounded number are left out or if, where the
  statement names the end of the window, the end is past the greatest count. -/
  accepted : ∀ dialect : Dialect, (∃ s, q.unpaged.statement dialect = .ok s) →
    (q.operators.any Operator.skips = true → q.operators.any Operator.orders = true) →
      ((∃ s, q.statement dialect = .ok s) ↔
        SkipsFirst q.operators ∧
          (q.operators.any Operator.skips = true → dialect = .offsetFetch ∨
            ∀ n ∈ takenBy? q.operators,
              min (skippedBy q.operators) maxCount.toNat + n ≤ maxCount.toNat))

section

variable {q : Query} {d : Draft}

/-- The keys of a draft are those that the operators declare. -/
theorem keys_draft (h : q.draft = .ok d) :
    keyTexts q.table q.operators = .ok d.keys ∧
      (d.keys ≠ [] ↔ q.operators.any Operator.orders = true) := by
  obtain ⟨keys, hkeys, hd, hnil⟩ := Draft.keys_run h
  have hdkeys : d.keys = keys := hd.trans (List.nil_append keys)
  rw [hdkeys]
  refine ⟨hkeys, ?_⟩
  rw [Ne, hnil, List.any_eq_true]
  simp

/-- The window of a draft is what the operators name together. -/
theorem window_draft (h : q.draft = .ok d)
    (hcounts : ∀ op ∈ q.operators, op.hasConstantCount = true) :
    d.skipped = min (skippedBy q.operators) maxCount.toNat ∧ d.taken? = takenBy? q.operators ∧
      d.skip.isSome = q.operators.any Operator.skips := by
  obtain ⟨hskips, htakes⟩ := map_counts q.table hcounts
  have hskip : d.skip = Bounding.skip.total (Bounding.skip.counts q.table q.operators) :=
    Draft.amount_draft h .skip
  have htake : d.take = (Bounding.take.counts q.table q.operators).min? :=
    Draft.amount_draft h .take
  refine ⟨?_, ?_, ?_⟩
  · have hd : d.skipped = (d.skip.getD 0).toNat := by
      unfold Draft.skipped
      cases d.skip <;> rfl
    rw [hd, hskip, Bounding.toNat_total_skip, hskips, sum_filter_skips]
  · rw [Draft.taken?, htake, toNat_min?, htakes, takenBy?]
  · have hsome (counts : List UInt64) :
        (Bounding.skip.total counts).isSome = !(counts.map UInt64.toNat).isEmpty := by
      cases counts <;> rfl
    rw [hskip, hsome, hskips, List.isEmpty_map, Bool.eq_iff_iff]
    simp

/-- The statement of a query without a terminal operator is that of a paging of its selection. -/
theorem exists_paging_of_statement {dialect : Dialect} {s : Statement}
    (hops : ∀ op ∈ q.operators, op.isTerminal = false) (hs : q.statement dialect = .ok s) :
    ∃ d p, q.draft = .ok d ∧ (d.select q.table).paging dialect = .ok p ∧
      s.text = (d.select q.table).text p ∧ s.limiter = p.limiter := by
  obtain ⟨d, hdraft, hs⟩ := bind_eq_ok.1 hs
  obtain ⟨p, hp, htext, -, hlimiter⟩ := Draft.statement_eq_ok hs
  have hterminal := Draft.terminal_run hdraft hops rfl
  rw [Draft.asked, hterminal, if_neg (by decide)] at htext
  exact ⟨d, p, hdraft, hp, htext, hlimiter⟩

end

/-- All dialects page a query without a terminal operator alike, and page what it asks for, as long
as the numbers of rows are integer constants that are not negative. -/
theorem pagesAsAsked (q : Query) (hops : ∀ op ∈ q.operators, op.isTerminal = false)
    (hcounts : ∀ op ∈ q.operators, op.hasConstantCount = true) : PagesAsAsked q where
  window := by
    intro dialect s hs
    obtain ⟨d, p, hdraft, hp, htext, hlimiter⟩ := exists_paging_of_statement hops hs
    refine ⟨d, p, hdraft, hp, htext, hlimiter, ?_⟩
    intro α rows hrows
    obtain ⟨hskipped, htaken, -⟩ := window_draft hdraft hcounts
    have hfirst := ((Draft.exists_run_iff hops hcounts rfl).1 ⟨d, hdraft⟩).2.2
    calc p.rows rows = slice d.skipped d.taken? rows := Select.rows_of_paging hp hrows
      _ = slice (skippedBy q.operators) (takenBy? q.operators) rows := by
        rw [hskipped, htaken, slice_min _ _ hrows]
      _ = q.paged rows := (paged_eq_slice hcounts hfirst rows).symm
  ordered := by
    intro dialect s hs hskips
    obtain ⟨d, p, hdraft, hp, htext, -⟩ := exists_paging_of_statement hops hs
    obtain ⟨-, -, hskip⟩ := window_draft hdraft hcounts
    have hskip' : d.skip.isSome = true := hskip.trans hskips
    have hordered : (d.select q.table).ordering.isSome = true := by
      obtain ⟨n, hn⟩ := Option.isSome_iff_exists.1 hskip'
      exact (Select.exists_paging_iff.1 ⟨p, hp⟩ n hn).1
    have hordering : (d.select q.table).ordering = some (", ".intercalate d.keys) := by
      cases horders : d.ordersRows with
      | true => simp only [Draft.select, horders, if_true]
      | false => simp [Draft.select, horders] at hordered
    refine ⟨d.keys, (keys_draft hdraft).1, ?_⟩
    rw [htext]
    exact Select.contains_ordering hp hskip' hordering
  unordered := by
    intro hskips horders dialect
    cases hdraft : q.draft with
    | error f => exact bind_eq_error hdraft _
    | ok d =>
      have hterminal := Draft.terminal_run hdraft hops rfl
      obtain ⟨-, -, hskip⟩ := window_draft hdraft hcounts
      have hnil : d.keys = [] := by
        by_contra hkeys
        rw [(keys_draft hdraft).2.1 hkeys] at horders
        cases horders
      obtain ⟨n, hn⟩ := Option.isSome_iff_exists.1 (hskip.trans hskips)
      have hselect : (d.select q.table).statement dialect =
          .error (Fault.invalidQuery .skipWithoutOrder) := by
        apply bind_eq_error
        simp [Select.paging, Draft.select, Draft.ordersRows, hn, hnil]
      rw [Query.statement, hdraft]
      change d.statement q.table dialect = _
      rw [Draft.statement, hterminal]
      exact hselect
  accepted := by
    intro dialect hplain horders
    obtain ⟨s₀, hs₀⟩ := hplain
    obtain ⟨d₀, hd₀, -⟩ := bind_eq_ok.1 hs₀
    have hrun : (∃ d, q.draft = .ok d) ↔ SkipsFirst q.operators := by
      refine (Draft.exists_run_iff hops hcounts rfl).trans ⟨fun h => h.2.2, fun h => ?_⟩
      refine ⟨⟨d₀, hd₀⟩, ?_, h⟩
      intro hnone
      cases hnone
    have hstatement {d : Draft} (hdraft : q.draft = .ok d) :
        (∃ s, q.statement dialect = .ok s) ↔
          (q.operators.any Operator.skips = true → dialect = .offsetFetch ∨
            ∀ n ∈ takenBy? q.operators,
              min (skippedBy q.operators) maxCount.toNat + n ≤ maxCount.toNat) := by
      have hterminal := Draft.terminal_run hdraft hops rfl
      obtain ⟨hskipped, htaken, hskip⟩ := window_draft hdraft hcounts
      have hs : q.statement dialect = d.statement q.table dialect := by
        rw [Query.statement, hdraft]
        rfl
      rw [hs, Draft.exists_statement_iff hterminal, hskip, hskipped, htaken,
        (keys_draft hdraft).2]
      exact ⟨fun h hskips => (h hskips).2, fun h hskips => ⟨horders hskips, h hskips⟩⟩
    constructor
    · rintro ⟨s, hs⟩
      obtain ⟨d, hdraft, -⟩ := bind_eq_ok.1 hs
      exact ⟨hrun.1 ⟨d, hdraft⟩, (hstatement hdraft).1 ⟨s, hs⟩⟩
    · rintro ⟨hfirst, hfits⟩
      obtain ⟨d, hdraft⟩ := hrun.2 hfirst
      exact (hstatement hdraft).2 hfits

/-- The third page of people, the oldest first, without the first of the page.  The number of the
page is captured. -/
def thirdPage : Query where
  table :=
    { name := "People"
      columns := [⟨"Name", "Name", .text, none, none, .application⟩,
        ⟨"Age", "Age", .int32, none, none, .application⟩] }
  operators :=
    [.orderBy .descending (.field (.row 0) "Age" .int32),
      .skip (.binary (.compute .mul) (.captured "page" (.int32 2)) (.value (.int32 5))),
      .thenBy .ascending (.field (.row 0) "Name" .text), .skip (.value (.int16 1)),
      .take (.value (.int64 7)), .take (.value (.int32 5))]

/-- Of twenty people the page has those behind the first eleven, up to the sixteenth. -/
theorem pagesAsAsked_thirdPage :
    (∀ op ∈ thirdPage.operators, op.isTerminal = false) ∧
      (∀ op ∈ thirdPage.operators, op.hasConstantCount = true) ∧
      ∃ s p, thirdPage.statement .top = .ok s ∧
        s.text = "SELECT TOP 16 Name, Age FROM People ORDER BY Age DESC, Name" ∧
        s.limiter = some ⟨11, some 5⟩ ∧ s.limiter = Paging.limiter p ∧
        p.rows (List.range 20) = [11, 12, 13, 14, 15] := by
  have hops : ∀ op ∈ thirdPage.operators, op.isTerminal = false := by decide
  have hcounts : ∀ op ∈ thirdPage.operators, op.hasConstantCount = true := by decide
  have hs : thirdPage.statement .top = .ok
      { text := "SELECT TOP 16 Name, Age FROM People ORDER BY Age DESC, Name"
        sources := []
        limiter := some ⟨11, some 5⟩ } := by
    rfl
  obtain ⟨-, p, -, -, -, hlimiter, hrows⟩ :=
    (pagesAsAsked thirdPage hops hcounts).window .top _ hs
  refine ⟨hops, hcounts, _, p, hs, rfl, rfl, hlimiter, ?_⟩
  rw [hrows Nat (List.range 20) (by decide)]
  rfl

end RowQuery.Query
