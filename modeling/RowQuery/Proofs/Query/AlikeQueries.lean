import RowQuery.Proofs.Query.Parameters
import RowQuery.Proofs.Sql.AlikeTerms

/-!
# Queries that differ in their constants

A constant of a query reaches the statement as a value and not as a piece of the text.  This module
compares two queries whose conditions and keys are folded and differ in constants that are not
null, each against one of the same variant, and says that they have the same text or fail with the
same fault.

Main results:

- Definition {lit}`Alike`: two queries differ in corresponding constants only.
- Theorem {lit}`Draft.agree_apply`: an operator makes the same of two drafts, whatever the
  constants.
- Theorem {lit}`Draft.records_run`: a draft holds the constants of the conditions, in their order.
- Theorem {lit}`statement_of_alike`: the statements of two queries that are alike differ in the
  values of corresponding constants only.
-/

namespace RowQuery

open Outcome

/-! ## Statements of the same text -/

namespace Sql

/-- Two statements have the same text, leave the same window to the reader, and have sources of the
same texts. -/
structure Statement.SameText (s s' : Statement) : Prop where
  text : s.text = s'.text
  limiter : s.limiter = s'.limiter
  sources : s.sources.map ParameterSource.text = s'.sources.map ParameterSource.text

/-- The values of the condition of a selection do not matter for its text. -/
theorem Select.agree_statement (s : Select) {filter : Option Condition}
    (h : filter.map Condition.text = s.filter.map Condition.text) (dialect : Dialect) :
    Agree Statement.SameText (s.statement dialect) (statement { s with filter } dialect) := by
  refine (Agree.refl (fun _ => rfl) (s.paging dialect)).bind ?_
  rintro p _ rfl
  refine .ok ⟨(s.text_of_filter h p).symm, rfl, ?_⟩
  have htexts (f : Option Condition) :
      (f.map Condition.source).toList.map ParameterSource.text = (f.map Condition.text).toList := by
    cases f <;> rfl
  rw [htexts, htexts, h]

end Sql

namespace Query

open Sql

variable {R : Value → Value → Prop} {table : Table}

/-! ## Queries that are built alike -/

/-- Two operators are the same apart from corresponding constants of their conditions and keys,
which are related.  Counts are the same. -/
inductive Operator.Alike (R : Value → Value → Prop) : Operator → Operator → Prop
  | filter {e e' : Expr} (h : Expr.Alike R e e') : Alike R (.filter e) (.filter e')
  | orderBy (direction : Direction) {key key' : Expr} (h : Expr.Alike R key key') :
    Alike R (.orderBy direction key) (.orderBy direction key')
  | thenBy (direction : Direction) {key key' : Expr} (h : Expr.Alike R key key') :
    Alike R (.thenBy direction key) (.thenBy direction key')
  | skip (count : Expr) : Alike R (.skip count) (.skip count)
  | take (count : Expr) : Alike R (.take count) (.take count)
  | first : Alike R .first .first
  | count {condition condition' : Option Expr}
    (h : Option.Rel (Expr.Alike R) condition condition') :
    Alike R (.count condition) (.count condition')
  | any {condition condition' : Option Expr}
    (h : Option.Rel (Expr.Alike R) condition condition') :
    Alike R (.any condition) (.any condition')
  | aggregate (function : Aggregate) {key key' : Expr} (h : Expr.Alike R key key') :
    Alike R (.aggregate function key) (.aggregate function key')
  | select {selector selector' : Expr} (h : Expr.Alike R selector selector') :
    Alike R (.select selector) (.select selector')
  | groupBy {key key' : Expr} (h : Expr.Alike R key key') : Alike R (.groupBy key) (.groupBy key')

/-- The condition or the key of an operator. -/
def Operator.trees : Operator → List Expr
  | filter e | orderBy _ e | thenBy _ e | aggregate _ e | select e | groupBy e => [e]
  | count condition | any condition => condition.toList
  | skip _ | take _ | first => []

/-- The condition or the key of an operator has no subtree that can still be folded. -/
def Operator.Folded (op : Operator) : Prop :=
  ∀ e ∈ op.trees, e.foldLocal = .ok e

/-- Operators that are alike have the same name. -/
theorem Operator.Alike.name_eq {op op' : Operator} (h : op.Alike R op') : op.name = op'.name := by
  cases h with
  | orderBy direction _ | thenBy direction _ => cases direction <;> rfl
  | _ => rfl

/-! ## Drafts -/

namespace Draft

variable {d d' : Draft} {e e' : Expr}

/-- Two drafts differ in corresponding constants only. -/
structure Alike (R : Value → Value → Prop) (d d' : Draft) : Prop where
  values : List.Forall₂ R d.values d'.values
  filter : d.filter.map Condition.text = d'.filter.map Condition.text
  keys : d.keys = d'.keys
  skip : d.skip = d'.skip
  take : d.take = d'.take
  terminal : d.terminal = d'.terminal

/-- Two conditions that are joined to others of the same text have the same text. -/
theorem text_joined {filter filter' : Option Condition} {c c' : Condition}
    (h : filter.map Condition.text = filter'.map Condition.text) (hc : c.text = c'.text) :
    (joined filter c).text = (joined filter' c').text := by
  cases filter with
  | none =>
    cases filter' with
    | none => exact hc
    | some _ => cases h
  | some earlier =>
    cases filter' with
    | none => cases h
    | some earlier' =>
      have htext : earlier.text = earlier'.text := Option.some.inj h
      simp only [joined, Condition.and, Condition.join, htext, hc]

/-- A bound on the number of rows is the same for both drafts. -/
theorem Alike.bound (hd : d.Alike R d') (n : UInt64) : (d.bound n).Alike R (d'.bound n) :=
  { hd with take := by rw [Draft.bound, Draft.bound, hd.take] }

section SameVariants

variable (hR : ∀ v w, R v w → v.Alike w)

include hR

/-- Conditions that are alike become conditions of the same text behind related constants. -/
theorem agree_conditionBehind {before before' : List Value}
    (hbefore : List.Forall₂ R before before') (h : Expr.Alike R e e') (he : e.foldLocal = .ok e)
    (he' : e'.foldLocal = .ok e') :
    Agree (fun c c' => c.1.text = c'.1.text ∧ List.Forall₂ R c.2 c'.2)
      (conditionBehind table before e) (conditionBehind table before' e') := by
  unfold conditionBehind
  rw [he, he']
  refine (lockstep_ofCondition hR h before before' hbefore).bind ?_
  rintro ⟨t, values⟩ ⟨t', values'⟩ ⟨ht, hvalues⟩
  cases ht
  exact .ok ⟨rfl, hvalues⟩

/-- Conditions that are alike are added alike. -/
theorem agree_addFilter? (hd : d.Alike R d')
    {condition condition' : Option Expr} (h : Option.Rel (Expr.Alike R) condition condition')
    (hfolded : ∀ e ∈ condition, e.foldLocal = .ok e)
    (hfolded' : ∀ e ∈ condition', e.foldLocal = .ok e) :
    Agree (Alike R) (d.addFilter? table condition) (d'.addFilter? table condition') := by
  cases h with
  | none => exact .ok hd
  | some h =>
    rw [addFilter?, addFilter?, addFilter_eq, addFilter_eq]
    refine (agree_conditionBehind hR hd.values h (hfolded _ rfl) (hfolded' _ rfl)).map ?_
    rintro ⟨c, values⟩ ⟨c', values'⟩ ⟨hc, hvalues⟩
    exact { hd with values := hvalues, filter := congrArg some (text_joined hd.filter hc) }

/-- Keys that are alike have the same text. -/
theorem agree_keyText (operator : String) (h : Expr.Alike R e e')
    (he : e.foldLocal = .ok e) (he' : e'.foldLocal = .ok e') :
    Agree Eq (keyText table operator e) (keyText table operator e') := by
  unfold keyText termAlone
  rw [he, he']
  refine (lockstep_ofExpr hR h [] [] .nil).bind ?_
  rintro ⟨t, recorded⟩ ⟨t', recorded'⟩ ⟨ht, hrecorded⟩
  cases ht
  cases hrecorded with
  | nil => exact .ok rfl
  | cons _ _ => exact .error _

/-- Keys that are alike are added alike. -/
theorem agree_addKey (hd : d.Alike R d') (operator : String)
    (direction : Direction) (h : Expr.Alike R e e') (he : e.foldLocal = .ok e)
    (he' : e'.foldLocal = .ok e') :
    Agree (Alike R) (d.addKey table operator direction e)
      (d'.addKey table operator direction e') := by
  refine (agree_keyText hR operator h he he').bind ?_
  rintro text _ rfl
  exact .ok { hd with keys := congrArg (· ++ [_]) hd.keys }

/-- An operator adds the same to two drafts, whatever the constants. -/
theorem agree_addOperator (hd : d.Alike R d')
    {op op' : Operator} (h : op.Alike R op') (hop : op.Folded) (hop' : op'.Folded) :
    Agree (Alike R) (d.addOperator table op) (d'.addOperator table op') := by
  have hname := h.name_eq
  cases h with
  | filter h =>
    exact agree_addFilter? hR hd (.some h) (fun e he => hop e (Option.mem_toList.2 he))
      fun e he => hop' e (Option.mem_toList.2 he)
  | orderBy direction h =>
    rw [addOperator, addOperator, hname]
    exact agree_addKey hR hd _ direction h (hop _ List.mem_cons_self) (hop' _ List.mem_cons_self)
  | thenBy direction h =>
    rw [addOperator, addOperator, hd.keys, hname]
    split
    · exact .error _
    · exact agree_addKey hR hd _ direction h (hop _ List.mem_cons_self) (hop' _ List.mem_cons_self)
  | skip count =>
    refine (Agree.refl (fun _ => rfl) (operatorCount table "Skip" count)).bind ?_
    rintro n _ rfl
    rw [hd.take]
    split
    · exact .error _
    · exact .ok { hd with take := rfl, skip := by rw [hd.skip] }
  | take count =>
    refine (Agree.refl (fun _ => rfl) (operatorCount table "Take" count)).bind ?_
    rintro n _ rfl
    exact .ok (hd.bound n)
  | first => exact .ok (hd.bound 1)
  | count h | any h =>
    refine (agree_addFilter? hR hd h (fun e he => hop e (Option.mem_toList.2 he))
      fun e he => hop' e (Option.mem_toList.2 he)).bind ?_
    intro d₁ d₁' hd₁
    exact .ok { hd₁ with terminal := rfl }
  | aggregate function h =>
    refine (agree_keyText hR _ h (hop _ List.mem_cons_self) (hop' _ List.mem_cons_self)).bind ?_
    rintro text _ rfl
    exact .ok { hd with terminal := rfl }
  | select _ | groupBy _ => exact .error _

/-- An operator makes the same of two drafts, whatever the constants. -/
theorem agree_apply (hd : d.Alike R d') {op op' : Operator}
    (h : op.Alike R op') (hop : op.Folded) (hop' : op'.Folded) :
    Agree (Alike R) (Draft.apply table d op) (Draft.apply table d' op') := by
  rw [Draft.apply.eq_def, Draft.apply.eq_def, hd.terminal, h.name_eq]
  split
  · exact .error _
  · exact agree_addOperator hR hd h hop hop'

/-- Operators make the same of two drafts, whatever the constants. -/
theorem agree_run (hd : d.Alike R d')
    {operators operators' : List Operator}
    (h : List.Forall₂ (Operator.Alike R) operators operators')
    (hfolded : ∀ op ∈ operators, op.Folded) (hfolded' : ∀ op ∈ operators', op.Folded) :
    Agree (Alike R) (operators.foldlM (Draft.apply table) d)
      (operators'.foldlM (Draft.apply table) d') := by
  induction h generalizing d d' with
  | nil => exact .ok hd
  | cons hop _ ih =>
    rw [List.foldlM_cons, List.foldlM_cons]
    have hstep : Agree (Alike R) (Draft.apply table d _) (Draft.apply table d' _) :=
      agree_apply hR hd hop (hfolded _ List.mem_cons_self) (hfolded' _ List.mem_cons_self)
    exact hstep.bind fun _ _ hd₁ => ih hd₁
      (fun later hlater => hfolded later (List.mem_cons_of_mem _ hlater))
      fun later hlater => hfolded' later (List.mem_cons_of_mem _ hlater)

end SameVariants

/-! ## Statements -/

/-- Drafts that differ in constants select the same, apart from the values of the condition. -/
theorem Alike.select_eq (hd : d.Alike R d') :
    d'.select table = { d.select table with filter := d'.filter } := by
  have hcolumns : d.columns table = d'.columns table := by rw [columns, columns, hd.terminal]
  have horders : d.ordersRows = d'.ordersRows := by
    rw [ordersRows, ordersRows, hd.keys, hd.terminal, hd.skip, hd.take]
  rw [select, select, hcolumns, horders, hd.keys, hd.skip, hd.take]

/-- The statements of drafts that differ in constants have the same text. -/
theorem agree_statement (hd : d.Alike R d') (dialect : Dialect) :
    Agree Statement.SameText (d.statement table dialect) (d'.statement table dialect) := by
  have hselect : Agree Statement.SameText ((d.select table).statement dialect)
      ((d'.select table).statement dialect) := by
    rw [hd.select_eq]
    exact Select.agree_statement (d.select table) hd.filter.symm dialect
  have hbounds : d.boundsResult = d'.boundsResult := by
    rw [boundsResult, boundsResult, hd.skip, hd.take, hd.terminal]
  unfold Draft.statement
  rw [hd.terminal, hbounds]
  split
  · exact hselect
  · split
    · exact .error _
    · refine hselect.bind fun s s' hs => ?_
      unfold close
      rw [hs.limiter]
      split
      · exact .error _
      · split
        · exact .ok ⟨congrArg existsText hs.text, rfl, hs.sources⟩
        · exact .ok hs

/-! ## The constants of a draft -/

/-- A draft holds these constants, which are the values of its condition. -/
structure Records (d : Draft) (constants : List Value) : Prop where
  values : d.values = constants
  filter : (d.filter.map Condition.values).getD [] = constants

/-- A draft without operators holds no constants. -/
theorem records_empty : Draft.empty.Records [] := ⟨rfl, rfl⟩

variable {constants : List Value}

/-- A folded condition adds its constants, if there is one. -/
theorem records_addFilter? (hd : d.Records constants) {condition : Option Expr}
    (hfolded : ∀ e ∈ condition, e.foldLocal = .ok e)
    (h : d.addFilter? table condition = .ok d') :
    d'.Records (constants ++ condition.toList.flatMap Expr.recorded) := by
  cases condition with
  | none =>
    cases h
    simpa using hd
  | some e =>
    rw [addFilter?, addFilter_eq, map_eq_ok] at h
    obtain ⟨⟨c, values⟩, hc, rfl⟩ := h
    obtain ⟨e', he', hc⟩ := bind_eq_ok.1 hc
    cases he'.symm.trans (hfolded e rfl)
    obtain ⟨⟨t, _⟩, ht, hc⟩ := bind_eq_ok.1 hc
    cases hc
    have hafter : values = d.values ++ e.recorded := (trace_ofCondition ht).after_eq
    have hadded : values.drop d.values.length = e.recorded := by
      rw [hafter, List.drop_left]
    rw [Option.toList_some, List.flatMap_singleton, ← hd.values]
    refine ⟨hafter, ?_⟩
    rw [hadded, hd.values, ← hd.filter]
    cases d.filter <;> rfl

/-- A folded operator adds the constants of its condition. -/
theorem records_adds (hd : d.Records constants) {op : Operator} (hop : op.Folded)
    (h : Adds table d op d') :
    d'.Records (constants ++ op.condition?.toList.flatMap Expr.recorded) := by
  have hkept (d' : Draft) (hvalues : d'.values = d.values) (hfilter : d'.filter = d.filter) :
      d'.Records (constants ++ []) := by
    rw [List.append_nil]
    exact ⟨hvalues.trans hd.values, by rw [hfilter, hd.filter]⟩
  cases h with
  | filter h => exact records_addFilter? hd (fun e he => hop e (Option.mem_toList.2 he)) h
  | orderBy h | thenBy _ h =>
    obtain ⟨_, _, rfl⟩ := orderedText_of_addKey h
    exact hkept _ rfl rfl
  | skip _ _ | take _ | first | aggregate _ => exact hkept _ rfl rfl
  | count h | any h =>
    obtain ⟨hvalues, hfilter⟩ :=
      records_addFilter? hd (fun e he => hop e (Option.mem_toList.2 he)) h
    exact ⟨hvalues, hfilter⟩

/-- Folded operators add the constants of their conditions, one after the other. -/
theorem records_run {operators : List Operator} (hd : d.Records constants)
    (hoperators : ∀ op ∈ operators, op.Folded)
    (h : operators.foldlM (Draft.apply table) d = .ok d') :
    d'.Records (constants ++
      (operators.flatMap (·.condition?.toList)).flatMap Expr.recorded) := by
  induction operators generalizing d constants with
  | nil =>
    cases h
    simpa using hd
  | cons op rest ih =>
    rw [List.foldlM_cons, bind_eq_ok] at h
    obtain ⟨d₁, hop, h⟩ := h
    have hd₁ := records_adds hd (hoperators op List.mem_cons_self) (apply_eq_ok.1 hop).2
    have hd' := ih hd₁ (fun later hlater => hoperators later (List.mem_cons_of_mem op hlater)) h
    simpa [List.append_assoc] using hd'

/-- The values of a statement are the constants of its draft. -/
theorem Records.values_statement (hd : d.Records constants) {dialect : Dialect} {s : Statement}
    (h : d.statement table dialect = .ok s) : s.values = constants := by
  obtain ⟨_, _, _, hsources, _⟩ := statement_eq_ok h
  rw [Statement.values, hsources, ← hd.filter]
  cases d.filter with
  | none => rfl
  | some c => exact List.append_nil c.values

end Draft

/-! ## Queries -/

/-- Two queries over one table differ in corresponding constants of their conditions and keys only,
and these constants are related. -/
structure Alike (R : Value → Value → Prop) (q q' : Query) : Prop where
  table : q.table = q'.table
  operators : List.Forall₂ (Operator.Alike R) q.operators q'.operators

/-- The conditions and keys of a query have no subtrees that can still be folded. -/
def Folded (q : Query) : Prop :=
  ∀ op ∈ q.operators, op.Folded

/-- The constants that the conditions of a query record, from left to right. -/
def recorded (q : Query) : List Value :=
  q.conditions.flatMap Expr.recorded

/-- The statements of two queries give nothing away of the constants of either: they have the same
text, leave the same window to the reader, and their sources have the same texts.  Only the values
differ: each statement holds the constants of its query in their order. -/
structure DiffersInValues (R : Value → Value → Prop) (q q' : Query) (s s' : Statement) : Prop
    extends s.SameText s' where
  values : s.values = q.recorded
  values' : s'.values = q'.recorded
  related : List.Forall₂ R s.values s'.values

/-- Folded queries over the same table that differ in constants only, each of them against one of
the same variant, fail with the same fault, or have statements that differ in the values of these
constants only. -/
theorem statement_of_alike (hR : ∀ v w, R v w → v.Alike w) {q q' : Query} (h : q.Alike R q')
    (hq : q.Folded) (hq' : q'.Folded) (dialect : Dialect) :
    Agree (DiffersInValues R q q') (q.statement dialect) (q'.statement dialect) := by
  have hempty : Draft.empty.Alike R Draft.empty := ⟨.nil, rfl, rfl, rfl, rfl, rfl⟩
  have hdraft : Agree (Draft.Alike R) q.draft q'.draft := by
    rw [draft, draft, h.table]
    exact Draft.agree_run hR hempty h.operators hq hq'
  rw [statement, statement]
  generalize hd : q.draft = x, hd' : q'.draft = y at hdraft ⊢
  cases hdraft with
  | error f => exact .error f
  | @ok d d' halike =>
    have hrecords : d.Records q.recorded := Draft.records_run Draft.records_empty hq hd
    have hrecords' : d'.Records q'.recorded := Draft.records_run Draft.records_empty hq' hd'
    have hstatement : Agree Statement.SameText (d.statement q.table dialect)
        (d'.statement q'.table dialect) := by
      rw [h.table]
      exact Draft.agree_statement halike dialect
    change Agree _ (d.statement q.table dialect) (d'.statement q'.table dialect)
    generalize hs : d.statement q.table dialect = x, hs' : d'.statement q'.table dialect = y
      at hstatement ⊢
    cases hstatement with
    | error f => exact .error f
    | ok hsame =>
      have hvalues := hrecords.values_statement hs
      have hvalues' := hrecords'.values_statement hs'
      refine .ok { hsame with values := hvalues, values' := hvalues', related := ?_ }
      rw [hvalues, hvalues', ← hrecords.values, ← hrecords'.values]
      exact halike.values

/-- The people whose name starts with some letters and who are over an age, by name. -/
def peopleStarting (letters : String) (age : Int32) : Query where
  table :=
    { name := "People"
      columns := [⟨"Name", "Name", .text, none, none, .application⟩,
        ⟨"Age", "Age", .int32, none, none, .application⟩] }
  operators :=
    [.filter (.binary (.connect .and)
        (.binary (.compare .eq)
          (.call (some (.field (.row 0) "Name" .text)) "Substring"
            [.value (.int32 0), .value (.int32 2)])
          (.value (.text letters)))
        (.binary (.compare .gt) (.field (.row 0) "Age" .int32) (.value (.int32 age)))),
      .orderBy .ascending (.field (.row 0) "Name" .text),
      .take (.value (.int32 5))]

/-- The condition and the key of the query are folded. -/
theorem folded_peopleStarting (letters : String) (age : Int32) :
    (peopleStarting letters age).Folded := by
  intro op hop e he
  simp only [peopleStarting, List.mem_cons, List.not_mem_nil, or_false] at hop
  rcases hop with rfl | rfl | rfl
  · cases List.mem_singleton.1 he
    rfl
  · cases List.mem_singleton.1 he
    rfl
  · cases he

/-- The query is the same for all letters and ages, apart from these. -/
theorem alike_peopleStarting (letters letters' : String) (age age' : Int32) :
    (peopleStarting letters age).Alike Value.Alike (peopleStarting letters' age') where
  table := rfl
  operators := by
    have hname : Expr.Alike Value.Alike (.field (.row 0) "Name" .text)
        (.field (.row 0) "Name" .text) := .field (.row 0) "Name" .text
    have hage : Expr.Alike Value.Alike (.field (.row 0) "Age" .int32)
        (.field (.row 0) "Age" .int32) := .field (.row 0) "Age" .int32
    have hpiece : Expr.AlikeArguments Value.Alike (Expr.writesArguments "Substring")
        [.value (.int32 0), .value (.int32 2)] [.value (.int32 0), .value (.int32 2)] :=
      .kept rfl (.kept rfl (.nil true))
    exact .cons (.filter (.binary _ (.binary _ (.callOn hname _ hpiece) (.value (.text _ _)))
      (.binary _ hage (.value (.int32 _ _))))) (.cons (.orderBy _ hname) (.cons (.take _) .nil))

/-- Letters that close a quotation are a value like any others. -/
theorem statement_of_alike_peopleStarting :
    (∀ v w, Value.Alike v w → Value.Alike v w) ∧
      (peopleStarting "Ad" 36).Alike Value.Alike (peopleStarting "' OR 1 = 1 --" 7) ∧
      (peopleStarting "Ad" 36).Folded ∧ (peopleStarting "' OR 1 = 1 --" 7).Folded ∧
      ∃ s s', (peopleStarting "Ad" 36).statement .top = .ok s ∧
        (peopleStarting "' OR 1 = 1 --" 7).statement .top = .ok s' ∧
        DiffersInValues Value.Alike (peopleStarting "Ad" 36) (peopleStarting "' OR 1 = 1 --" 7)
          s s' ∧
        s'.text = "SELECT TOP 5 Name, Age FROM People WHERE " ++
          "((SUBSTRING(Name, 0 + 1, 2) = @0) AND (Age > @1)) ORDER BY Name" ∧
        s.values = [.text "Ad", .int32 36] ∧ s'.values = [.text "' OR 1 = 1 --", .int32 7] := by
  have hR : ∀ v w, Value.Alike v w → Value.Alike v w := fun _ _ h => h
  have halike := alike_peopleStarting "Ad" "' OR 1 = 1 --" 36 7
  have hq := folded_peopleStarting "Ad" 36
  have hq' := folded_peopleStarting "' OR 1 = 1 --" 7
  obtain ⟨s, hs⟩ : ∃ s, (peopleStarting "Ad" 36).statement .top = .ok s := ⟨_, rfl⟩
  obtain ⟨s', hs', htext⟩ : ∃ s', (peopleStarting "' OR 1 = 1 --" 7).statement .top = .ok s' ∧
      s'.text = "SELECT TOP 5 Name, Age FROM People WHERE " ++
        "((SUBSTRING(Name, 0 + 1, 2) = @0) AND (Age > @1)) ORDER BY Name" := ⟨_, rfl, rfl⟩
  have hagree := statement_of_alike hR halike hq hq' .top
  rw [hs, hs'] at hagree
  cases hagree with
  | ok h => exact ⟨hR, halike, hq, hq', s, s', hs, hs', h, htext, h.values, h.values'⟩

end Query

end RowQuery
