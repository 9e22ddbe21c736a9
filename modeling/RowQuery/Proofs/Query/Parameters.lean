import RowQuery.Proofs.Query.Steps
import RowQuery.Proofs.Sql.Binding
import RowQuery.Proofs.Sql.RecordedConstants
import RowQuery.Proofs.Sql.SelectText

/-!
# The parameters of a query

A query records the constants of its conditions while the conditions become text, and a command
reads the text again to find the placeholders.  This module says that both agree: each
placeholder gets the constant that was recorded for it.

Main results:

- Definition {lit}`Draft.Carries`: what a draft knows about the constants of its conditions.
- Theorems {lit}`Draft.carries_adds` and {lit}`Draft.carries_run`: an operator, and a list of
  them, preserve it.
- Theorem {lit}`bind_statement`: the parameters of a command that is made of a query.
-/

namespace RowQuery

open Outcome

/-! ## Names without placeholders -/

/-- A name without at signs and quotes. -/
def PlainName (name : String) : Prop := '@' ∉ name.toList ∧ '\'' ∉ name.toList

instance (name : String) : Decidable (PlainName name) :=
  inferInstanceAs (Decidable (_ ∧ _))

/-- The name of a table and the names of its columns have no at signs and quotes. -/
structure Table.Plain (t : Table) : Prop where
  name : PlainName t.name
  columns : ∀ c ∈ t.columns, PlainName c.name

namespace Query

open Sql

/-- A name without at signs and quotes is quiet. -/
theorem quiet_of_plainName {name : String} (h : PlainName name) : Quiet name :=
  quiet_of_notMem h.1 h.2

/-- All columns of the trace of a term are quiet. -/
theorem quiet_of_trace {table : Table} (htable : table.Plain)
    {recorded written before after : List Value} {indices : List Nat} {columns : List String}
    (h : Trace table recorded written before indices columns after) :
    ∀ c ∈ columns, Quiet c := by
  intro name hname
  obtain ⟨c, hc, rfl⟩ := List.mem_map.1 (h.columns_mem name hname)
  exact quiet_of_plainName (htable.columns c hc)

/-! ## Conditions of a query -/

/-- The condition that an operator puts on the rows. -/
def Operator.condition? : Operator → Option Expr
  | filter condition => some condition
  | count condition => condition
  | any condition => condition
  | _ => none

namespace Draft

/-- The placeholders of the condition of a draft number the constants that were recorded so far,
and no other part of the draft has a placeholder. -/
structure Carries (table : Table) (recorded written : List Value) (indices : List Nat)
    (d : Draft) : Prop where
  trace : ∃ columns, Trace table recorded written [] indices columns d.values
  unfiltered : d.filter = none → indices = []
  filter : ∀ c ∈ d.filter, c.values = d.values ∧ Scans c.text (indices.map Term.placeholder)
  keys : ∀ key ∈ d.keys, Scans key []
  aggregate : ∀ function key, d.terminal = some (.aggregate function key) → Scans key []

/-- Nothing is recorded at first. -/
theorem carries_empty (table : Table) : Carries table [] [] [] empty where
  trace := ⟨[], Trace.nothing table []⟩
  unfiltered _ := rfl
  filter := by simp [empty]
  keys := by simp [empty]
  aggregate := by simp [empty]

variable {table : Table} {recorded written : List Value} {indices : List Nat} {d d' : Draft}

/-! ## Expressions -/

/-- The term of an expression on its own is made of the folded expression. -/
theorem termAlone_eq_ok {e : Expr} {t : Term} {values : List Value} :
    termAlone table e = .ok (t, values) ↔
      ∃ e', e.foldLocal = .ok e' ∧ (Term.ofExpr table e').run [] = .ok (t, values) :=
  bind_eq_ok

/-- A key has no placeholders. -/
theorem scans_keyText (htable : table.Plain) {operator text : String} {key : Expr}
    (h : keyText table operator key = .ok text) : Scans text [] := by
  rw [keyText, bind_eq_ok] at h
  obtain ⟨⟨t, values⟩, hterm, h⟩ := h
  obtain ⟨e', _, hrun⟩ := termAlone_eq_ok.1 hterm
  have htrace := trace_ofExpr hrun
  cases values with
  | cons v rest => cases h
  | nil =>
    cases h
    have hindices : t.indices = [] := by
      rw [List.eq_nil_iff_forall_not_mem]
      intro i hi
      exact Nat.not_lt_zero i (htrace.numbered.lt_of_mem hi)
    have hscans := Term.scans_text (quiet_of_trace htable htrace)
    rwa [Term.names, hindices] at hscans

/-! ## Operators -/

/-- A condition adds its constants behind those that are there. -/
theorem carries_addFilter (htable : table.Plain) (hd : d.Carries table recorded written indices)
    {condition : Expr} (h : d.addFilter table condition = .ok d') :
    ∃ e' more, condition.foldLocal = .ok e' ∧
      d'.Carries table (recorded ++ e'.recorded) (written ++ e'.written) (indices ++ more) := by
  simp only [addFilter, bind_eq_ok] at h
  obtain ⟨e', hfold, ⟨t, values⟩, hrun, h⟩ := h
  cases h
  have htrace := trace_ofCondition hrun
  have hscans := Term.scans_text (quiet_of_trace htable htrace)
  have hvalues : values = d.values ++ e'.recorded := htrace.after_eq
  have hdrop : values.drop d.values.length = e'.recorded := by rw [hvalues, List.drop_left]
  obtain ⟨columns, hbefore⟩ := hd.trace
  refine ⟨e', t.indices, hfold, ⟨⟨_, hbefore.append htrace⟩, by simp, ?_, hd.keys, hd.aggregate⟩⟩
  intro c hc
  cases hfilter : d.filter with
  | none =>
    -- nothing was recorded before the first condition
    have hindices := hd.unfiltered hfilter
    have hnumbered := hbefore.numbered
    rw [hindices] at hnumbered
    have hnil : d.values = [] := List.eq_nil_of_length_eq_zero hnumbered.eq_of_nil
    simp only [hfilter, Option.mem_def, Option.some.injEq] at hc
    rw [← hc, hindices, hdrop, hvalues, hnil]
    exact ⟨rfl, hscans⟩
  | some earlier =>
    obtain ⟨hearlier, hscansEarlier⟩ := hd.filter earlier hfilter
    simp only [hfilter, Option.mem_def, Option.some.injEq] at hc
    rw [← hc, List.map_append]
    refine ⟨?_, scans_join hscansEarlier hscans⟩
    change earlier.values ++ values.drop d.values.length = values
    rw [hdrop, hearlier, hvalues]

/-- A condition that may be missing adds its constants. -/
theorem carries_addFilter? (htable : table.Plain) (hd : d.Carries table recorded written indices)
    {condition : Option Expr} (h : d.addFilter? table condition = .ok d') :
    ∃ folded more, condition.toList.mapM Expr.foldLocal = .ok folded ∧
      d'.Carries table (recorded ++ folded.flatMap Expr.recorded)
        (written ++ folded.flatMap Expr.written) (indices ++ more) := by
  cases condition with
  | none =>
    cases h
    exact ⟨[], [], rfl, by simpa using hd⟩
  | some e =>
    obtain ⟨e', more, hfold, hcarries⟩ := carries_addFilter htable hd h
    refine ⟨[e'], more, ?_, by simpa using hcarries⟩
    rw [Option.toList_some, List.mapM_cons, hfold]
    rfl

/-- An ordering key leaves the constants as they are. -/
theorem carries_addKey (htable : table.Plain) (hd : d.Carries table recorded written indices)
    {operator : String} {direction : Direction} {key : Expr}
    (h : d.addKey table operator direction key = .ok d') :
    d'.Carries table recorded written indices := by
  simp only [addKey, bind_eq_ok] at h
  obtain ⟨text, htext, h⟩ := h
  cases h
  have hscans := scans_keyText htable htext
  refine { hd with keys := ?_ }
  intro key hkey
  rcases List.mem_append.1 hkey with hkey | hkey
  · exact hd.keys key hkey
  · rw [List.mem_singleton.1 hkey]
    cases direction with
    | ascending => exact hscans
    | descending =>
      have hdesc : Quiet " DESC" := by decide
      exact (hscans.append hdesc.yields (ends_append (by decide))).scans

/-- A bound on the number of rows leaves the constants as they are. -/
theorem carries_bound (hd : d.Carries table recorded written indices) (n : UInt64) :
    (d.bound n).Carries table recorded written indices :=
  { hd with }

/-- A question for the rows leaves the constants as they are. -/
theorem carries_terminal (hd : d.Carries table recorded written indices) {terminal : Terminal}
    (h : ∀ function key, terminal = .aggregate function key → Scans key []) :
    Carries table recorded written indices { d with terminal := some terminal } :=
  { hd with aggregate := fun function key hterminal => h function key (Option.some.inj hterminal) }

/-- An operator adds the constants of its condition. -/
theorem carries_adds (htable : table.Plain) (hd : d.Carries table recorded written indices)
    {op : Operator} (h : Adds table d op d') :
    ∃ folded more, op.condition?.toList.mapM Expr.foldLocal = .ok folded ∧
      d'.Carries table (recorded ++ folded.flatMap Expr.recorded)
        (written ++ folded.flatMap Expr.written) (indices ++ more) := by
  have hkept {d' : Draft} {op : Operator} (hd' : d'.Carries table recorded written indices)
      (hop : op.condition? = none) :
      ∃ folded more, op.condition?.toList.mapM Expr.foldLocal = .ok folded ∧
        d'.Carries table (recorded ++ folded.flatMap Expr.recorded)
          (written ++ folded.flatMap Expr.written) (indices ++ more) := by
    rw [hop]
    exact ⟨[], [], rfl, by simpa using hd'⟩
  cases h with
  | filter h => exact carries_addFilter? htable hd h
  | orderBy h => exact hkept (carries_addKey htable hd h) rfl
  | thenBy _ h => exact hkept (carries_addKey htable hd h) rfl
  | skip _ _ => exact hkept { hd with } rfl
  | take _ => exact hkept (carries_bound hd _) rfl
  | first => exact hkept (carries_bound hd 1) rfl
  | count h =>
    obtain ⟨folded, more, hfolded, hcarries⟩ := carries_addFilter? htable hd h
    exact ⟨folded, more, hfolded, carries_terminal hcarries (by simp)⟩
  | any h =>
    obtain ⟨folded, more, hfolded, hcarries⟩ := carries_addFilter? htable hd h
    exact ⟨folded, more, hfolded, carries_terminal hcarries (by simp)⟩
  | aggregate htext =>
    apply hkept _ rfl
    apply carries_terminal hd
    rintro _ _ hterminal
    cases hterminal
    exact scans_keyText htable htext

/-- Operators add the constants of their conditions one after the other. -/
theorem carries_run (htable : table.Plain) {operators : List Operator}
    (hd : d.Carries table recorded written indices)
    (h : operators.foldlM (Draft.apply table) d = .ok d') :
    ∃ folded indices', (operators.flatMap (·.condition?.toList)).mapM Expr.foldLocal = .ok folded ∧
      d'.Carries table (recorded ++ folded.flatMap Expr.recorded)
        (written ++ folded.flatMap Expr.written) indices' := by
  induction operators generalizing d recorded written indices with
  | nil =>
    cases h
    exact ⟨[], indices, rfl, by simpa using hd⟩
  | cons op rest ih =>
    rw [List.foldlM_cons, bind_eq_ok] at h
    obtain ⟨d₁, hop, h⟩ := h
    obtain ⟨first, more, hfirst, hd₁⟩ := carries_adds htable hd (apply_eq_ok.1 hop).2
    obtain ⟨others, indices', hothers, hd'⟩ := ih hd₁ h
    refine ⟨first ++ others, indices', ?_, ?_⟩
    · rw [List.flatMap_cons, List.mapM_append, hfirst, hothers]
      rfl
    · simpa [List.append_assoc] using hd'

/-! ## Statements -/

/-- Only the condition of the selection of a draft has placeholders. -/
theorem Carries.select (htable : table.Plain) (hd : d.Carries table recorded written indices) :
    (d.select table).Reads (.onlyFilter (indices.map Term.placeholder)) where
  columns := by
    unfold Draft.select columns
    split
    · unfold Select.columnsOf
      split
      · exact (show Quiet "*" by decide).yields.scans
      · apply scans_list
        intro text htext
        obtain ⟨c, hc, rfl⟩ := List.mem_map.1 htext
        exact (quiet_of_plainName (htable.columns c hc)).yields.scans
    · exact (show Quiet "COUNT(*)" by decide).yields.scans
    · exact (show Quiet "''" by decide).yields.scans
    · rename_i function key hterminal
      have hfunction : Quiet (function.function ++ "(") := by cases function <;> decide
      have hclose : Quiet ")" := by decide
      have hkey := hfunction.yields.append_scans (hd.aggregate function key hterminal)
      exact (hkey.append hclose.yields (ends_append (by decide))).scans
  source := (quiet_of_plainName htable.name).yields.scans
  filter := by
    change Scans ((d.filter.map Condition.text).getD "") (indices.map Term.placeholder)
    cases hfilter : d.filter with
    | none =>
      rw [hd.unfiltered hfilter]
      exact scans_empty
    | some c => exact (hd.filter c hfilter).2
  grouping := scans_empty
  ordering := by
    unfold Draft.select
    split
    · exact scans_list hd.keys
    · exact scans_empty

/-- The statement of a draft has the placeholders of its condition, which is its only source. -/
theorem Carries.statement (htable : table.Plain) (hd : d.Carries table recorded written indices)
    {dialect : Dialect} {s : Statement} (h : d.statement table dialect = .ok s) :
    Scans s.text (indices.map Term.placeholder) ∧
      s.sources = (d.filter.map Condition.source).toList := by
  obtain ⟨p, _, htext, hsources, _⟩ := statement_eq_ok h
  refine ⟨?_, hsources⟩
  have hscans := (hd.select htable).scans_text p
  rw [ClauseNames.inText_onlyFilter] at hscans
  rw [htext, asked]
  split
  · have hopen : Quiet "SELECT (CASE WHEN EXISTS(" := by decide
    have hclose : Quiet ") THEN 1 ELSE 0 END)" := by decide
    have hexists :=
      (hopen.yields.append_scans hscans).append hclose.yields (ends_append (by decide))
    rw [List.nil_append, List.append_nil] at hexists
    exact hexists.scans
  · exact hscans

end Draft

/-! ## Queries -/

/-- The conditions of a query, in their order. -/
def conditions (q : Query) : List Expr :=
  q.operators.flatMap (·.condition?.toList)

/-- A command that was empty gets one parameter for each constant that the conditions of a query
record: the parameters have the numbers of the constants, in their order.  The placeholders of
the text bring in these numbers one after the other, and where one is written, the parameter of
its number is the constant that is written there. -/
theorem bind_statement {q : Query} {dialect : Dialect} {s : Statement} (htable : q.table.Plain)
    (h : q.statement dialect = .ok s) :
    s.bind Command.empty = ⟨s.text, parametersOf s.values⟩ ∧
      ∃ folded indices, q.conditions.mapM Expr.foldLocal = .ok folded ∧
        s.values = folded.flatMap Expr.recorded ∧
        placeholders s.text = indices.map Term.placeholder ∧
        Numbered 0 indices s.values.length ∧
        indices.map (s.values[·]?) = (folded.flatMap Expr.written).map some ∧
        ∀ v ∈ s.values, v.isNull = false := by
  obtain ⟨d, hdraft, hs⟩ := bind_eq_ok.1 h
  obtain ⟨folded, indices, hfolded, hd⟩ :=
    Draft.carries_run htable (Draft.carries_empty q.table) hdraft
  obtain ⟨hscans, hsources⟩ := hd.statement htable hs
  obtain ⟨columns, htrace⟩ := hd.trace
  rw [List.nil_append, List.nil_append] at htrace
  have hvalues : d.values = folded.flatMap Expr.recorded := htrace.after_eq
  have hbound : s.values = d.values ∧ bindings s.text s.sources = parametersOf d.values := by
    rw [Statement.values, hsources]
    cases hfilter : d.filter with
    | none =>
      have hindices := hd.unfiltered hfilter
      have hnumbered := htrace.numbered
      rw [hindices] at hnumbered hscans
      have hnil : d.values = [] := List.eq_nil_of_length_eq_zero hnumbered.eq_of_nil
      rw [hnil]
      exact ⟨rfl, bindings_of_scans_nil hscans _⟩
    | some c =>
      obtain ⟨hc, hscansC⟩ := hd.filter c hfilter
      have hnumbered := htrace.numbered
      rw [← hc] at hnumbered ⊢
      exact ⟨List.append_nil _, bindings_of_numbered hscans hscansC hnumbered⟩
  rw [hbound.1]
  refine ⟨bind_empty hbound.2, folded, indices, hfolded, hvalues, hscans.placeholders_eq,
    htrace.numbered, htrace.reads, ?_⟩
  intro v hv
  rw [hvalues, List.mem_flatMap] at hv
  obtain ⟨e, _, hmem⟩ := hv
  exact Expr.isNull_of_mem_constants hmem

/-- Three conditions on people, the last of them on what is counted.  The subject of the test for
the empty text is written twice. -/
def commaPeople : Query where
  table :=
    { name := "People"
      columns := [⟨"Id", "Id", .int32, some 0, none, .application⟩,
        ⟨"Name", "Name", .text, none, none, .application⟩] }
  operators :=
    [.filter (.call (some (.field (.row 0) "Name" .text)) "Contains" [.value (.text "@0")]),
      .filter (.not (.call none "IsNullOrEmpty"
        [.binary (.compute .add) (.field (.row 0) "Name" .text) (.value (.text ","))])),
      .count (some (.binary (.compare .gt) (.field (.row 0) "Id" .int32)
        (.binary (.compute .add) (.value (.int32 4)) (.value (.int32 6)))))]

/-- The condition of the statement. -/
def commaCondition : String :=
  "(((Name LIKE '%' + @0 + '%')) AND (NOT ((Name + @1) IS NULL OR (Name + @1) = ''))) AND " ++
    "((Id > @2))"

/-- Three constants become three parameters. -/
theorem bind_statement_commaPeople :
    ∃ s, commaPeople.table.Plain ∧ commaPeople.statement .top = .ok s ∧
      s.text = "SELECT COUNT(*) FROM People WHERE " ++ commaCondition ∧
      s.bind Command.empty =
        ⟨s.text, [("@0", .text "@0"), ("@1", .text ","), ("@2", .int32 10)]⟩ := by
  have hplain : commaPeople.table.Plain := ⟨by decide, by decide⟩
  have hs : commaPeople.statement .top = .ok
      { text := "SELECT COUNT(*) FROM People WHERE " ++ commaCondition
        sources := [⟨commaCondition, [.text "@0", .text ",", .int32 10]⟩]
        limiter := none } := by
    rfl
  exact ⟨_, hplain, hs, rfl, (bind_statement hplain hs).1⟩

end Query

end RowQuery
