import RowQuery.Proofs.Query.Paging
import RowQuery.Proofs.Query.Parameters
import RowQuery.Proofs.Sql.NamedQuery
import RowQuery.Proofs.Sql.Operands

/-!
# Named queries of statements

Where rows are left out by their numbers, the statement of a query stands behind a named query that
selects the rows with their numbers.  A named query may open a statement and stand nowhere else, and
all that it selects has to have a name.

Both hold as long as the rows themselves are asked for.  A terminal operator puts a computed column
without a name in place of the columns, and a question for any row puts the whole statement, the
named query included, into another one.

Main results:

- Definition {lit}`KeepsNamedQuery`: a named query opens the statement or is not there, and it
  selects columns of the table.
- Theorem {lit}`Draft.texts_run`: a property of the texts of terms holds of all texts of a draft.
- Theorem {lit}`keepsNamedQuery_iff`: the queries whose statement keeps the
  named query in its place.
- Theorem {lit}`not_keepsNamedQuery_anyButFirst`: a question for a row that
  has a named query inside.
-/

namespace RowQuery.Query

open Outcome
open Sql

/-! ## The texts of a draft -/

/-- The operator asks for any row. -/
def Operator.asksAny : Operator → Bool
  | any _ => true
  | _ => false

namespace Draft

variable {table : Table} {d d' : Draft} {P : String → Prop}

/-- All texts that a draft has gathered have a property. -/
structure Texts (P : String → Prop) (d : Draft) : Prop where
  filter : ∀ c ∈ d.filter, P c.text
  keys : ∀ key ∈ d.keys, P key
  aggregate : ∀ function key, d.terminal = some (.aggregate function key) → P key

/-- Nothing is gathered at first. -/
theorem texts_empty (P : String → Prop) : empty.Texts P where
  filter := by simp [empty]
  keys := by simp [empty]
  aggregate := by simp [empty]

/-- The property is one of all terms over a table, and it is kept where conditions are joined and
where a key gets its direction. -/
structure Kept (table : Table) (P : String → Prop) : Prop where
  value : ∀ {e : Expr} {t : Term} {before after : List Value},
    (Term.ofExpr table e).run before = .ok (t, after) → P t.text
  condition : ∀ {e : Expr} {t : Term} {before after : List Value},
    (Term.ofCondition table e).run before = .ok (t, after) → P t.text
  join : ∀ {a b : Condition}, P a.text → P b.text → P (a.and b).text
  descending : ∀ {key : String}, P key → P (key ++ " DESC")

/-- A key has the property. -/
theorem text_keyText (hP : Kept table P) {operator text : String} {key : Expr}
    (h : keyText table operator key = .ok text) : P text := by
  rw [keyText, bind_eq_ok] at h
  obtain ⟨⟨t, values⟩, hterm, h⟩ := h
  obtain ⟨e', _, hrun⟩ := termAlone_eq_ok.1 hterm
  cases values with
  | cons v rest => cases h
  | nil =>
    cases h
    exact hP.value hrun

/-- A condition adds a text with the property. -/
theorem texts_addFilter? (hP : Kept table P) (hd : d.Texts P) {condition : Option Expr}
    (h : d.addFilter? table condition = .ok d') : d'.Texts P := by
  cases condition with
  | none =>
    cases h
    exact hd
  | some e =>
    rw [addFilter?, addFilter_eq, map_eq_ok] at h
    obtain ⟨⟨added, values⟩, hadded, rfl⟩ := h
    obtain ⟨e', _, hadded⟩ := bind_eq_ok.1 hadded
    obtain ⟨⟨t, _⟩, hrun, hadded⟩ := bind_eq_ok.1 hadded
    cases hadded
    refine { hd with filter := ?_ }
    intro c hc
    cases hc
    cases hfilter : d.filter with
    | none => exact hP.condition hrun
    | some earlier => exact hP.join (hd.filter earlier hfilter) (hP.condition hrun)

/-- An ordering key adds a text with the property. -/
theorem texts_addKey (hP : Kept table P) (hd : d.Texts P) {operator : String}
    {direction : Direction} {key : Expr} (h : d.addKey table operator direction key = .ok d') :
    d'.Texts P := by
  obtain ⟨text, htext, h⟩ := bind_eq_ok.1 h
  have hkey : P text := text_keyText hP htext
  cases h
  refine { hd with keys := ?_ }
  intro key hmem
  rcases List.mem_append.1 hmem with hmem | hmem
  · exact hd.keys key hmem
  · rw [List.mem_singleton.1 hmem]
    cases direction with
    | ascending => exact hkey
    | descending => exact hP.descending hkey

/-- An operator adds texts with the property. -/
theorem texts_adds (hP : Kept table P) (hd : d.Texts P) {op : Operator} (h : Adds table d op d') :
    d'.Texts P := by
  cases h with
  | filter h => exact texts_addFilter? hP hd h
  | orderBy h => exact texts_addKey hP hd h
  | thenBy _ h => exact texts_addKey hP hd h
  | skip _ _ => exact { hd with }
  | take _ => exact { hd with }
  | first => exact { hd with }
  | count h => exact { texts_addFilter? hP hd h with aggregate := by simp }
  | any h => exact { texts_addFilter? hP hd h with aggregate := by simp }
  | aggregate htext =>
    refine { hd with aggregate := ?_ }
    intro function key hterminal
    cases hterminal
    exact text_keyText hP htext

/-- Operators add texts with the property one after the other. -/
theorem texts_run (hP : Kept table P) {operators : List Operator} (hd : d.Texts P)
    (h : operators.foldlM (Draft.apply table) d = .ok d') : d'.Texts P := by
  induction operators generalizing d with
  | nil =>
    cases h
    exact hd
  | cons op rest ih =>
    rw [List.foldlM_cons, bind_eq_ok] at h
    obtain ⟨d₁, hop, h⟩ := h
    exact ih (texts_adds hP hd (apply_eq_ok.1 hop).2) h

/-! ## Windows and terminals -/

/-- Rows are left out behind an operator if they were before or if the operator leaves out some. -/
theorem skip_adds {op : Operator} (h : Adds table d op d') :
    d'.skip.isSome = (d.skip.isSome || op.skips) := by
  cases h with
  | filter h | count h | any h =>
    obtain ⟨_, _, rfl⟩ := eq_of_addFilter? h
    exact (Bool.or_false _).symm
  | orderBy h | thenBy _ h =>
    obtain ⟨_, _, rfl⟩ := orderedText_of_addKey h
    exact (Bool.or_false _).symm
  | skip _ _ => exact (Bool.or_true _).symm
  | take _ | first | aggregate _ => exact (Bool.or_false _).symm

/-- Rows are left out behind operators if they were before or if an operator leaves out some. -/
theorem skip_run {operators : List Operator}
    (h : operators.foldlM (Draft.apply table) d = .ok d') :
    d'.skip.isSome = (d.skip.isSome || operators.any Operator.skips) := by
  induction operators generalizing d with
  | nil =>
    cases h
    exact (Bool.or_false _).symm
  | cons op rest ih =>
    rw [List.foldlM_cons, bind_eq_ok] at h
    obtain ⟨d₁, hop, h⟩ := h
    rw [ih h, skip_adds (apply_eq_ok.1 hop).2, List.any_cons, Bool.or_assoc]

/-- An operator leaves behind a terminal if it is one, which asks for any row
if the operator does. -/
theorem terminal_adds_eq {op : Operator} (h : Adds table d op d') (hd : d.terminal = none) :
    d'.terminal.isSome = op.isTerminal ∧ (d'.terminal = some .any ↔ op.asksAny = true) := by
  have hnone {d' : Draft} (hd' : d'.terminal = d.terminal) :
      d'.terminal.isSome = false ∧ (d'.terminal = some .any ↔ false = true) := by
    rw [hd', hd]
    simp
  cases h with
  | filter h =>
    obtain ⟨_, _, rfl⟩ := eq_of_addFilter? h
    exact hnone rfl
  | orderBy h | thenBy _ h =>
    obtain ⟨_, _, rfl⟩ := orderedText_of_addKey h
    exact hnone rfl
  | skip _ _ | take _ | first => exact hnone rfl
  | count _ | any _ | aggregate _ => simp [Operator.isTerminal, Operator.asksAny]

/-- Operators leave behind a terminal if one of them is terminal, which asks for any row if that
operator does. -/
theorem terminal_run_eq {operators : List Operator}
    (h : operators.foldlM (Draft.apply table) d = .ok d') (hd : d.terminal = none) :
    d'.terminal.isSome = operators.any Operator.isTerminal ∧
      (d'.terminal = some .any ↔ operators.any Operator.asksAny = true) := by
  induction operators generalizing d with
  | nil =>
    cases h
    simp [hd]
  | cons op rest ih =>
    rw [List.foldlM_cons, bind_eq_ok] at h
    obtain ⟨d₁, hop, h⟩ := h
    obtain ⟨hterminal, hany⟩ := terminal_adds_eq (apply_eq_ok.1 hop).2 hd
    rw [List.any_cons, List.any_cons]
    cases hnext : d₁.terminal with
    | none =>
      rw [hnext] at hterminal hany
      obtain ⟨hterminal', hany'⟩ := ih h hnext
      have hplain : op.asksAny = false := by simpa using hany
      rw [← hterminal, hplain, Option.isSome_none, Bool.false_or, Bool.false_or]
      exact ⟨hterminal', hany'⟩
    | some terminal =>
      -- nothing can follow a terminal operator
      cases rest with
      | nil =>
        cases h
        simpa using ⟨hterminal, hany⟩
      | cons op' rest =>
        rw [List.foldlM_cons, bind_eq_ok] at h
        obtain ⟨d₂, hop', -⟩ := h
        rw [(apply_eq_ok.1 hop').1] at hnext
        cases hnext

/-! ## Selections -/

/-- The texts of terms over a table are steady if the names of its columns are identifiers. -/
theorem kept_steady (hcolumns : ∀ c ∈ table.columns, isIdentifier c.name = true) :
    Kept table Steady where
  value h := by
    apply Term.steady_text
    intro c hc
    obtain ⟨column, hcolumn, rfl⟩ := List.mem_map.1 ((trace_ofExpr h).columns_mem c hc)
    exact steady_of_isIdentifier (hcolumns column hcolumn)
  condition h := by
    apply Term.steady_text
    intro c hc
    obtain ⟨column, hcolumn, rfl⟩ := List.mem_map.1 ((trace_ofCondition h).columns_mem c hc)
    exact steady_of_isIdentifier (hcolumns column hcolumn)
  join ha hb := steady_join ha hb .and
  descending h := h.append (show Steady " DESC" by decide)

/-- The columns of a draft are steady. -/
theorem Texts.steady_columns (hd : d.Texts Steady)
    (hcolumns : ∀ c ∈ table.columns, isIdentifier c.name = true) : Steady (d.columns table) := by
  unfold columns
  split
  · unfold Select.columnsOf
    split
    · decide
    · apply steady_intercalate
      intro name hname
      obtain ⟨c, hc, rfl⟩ := List.mem_map.1 hname
      exact steady_of_isIdentifier (hcolumns c hc)
  · decide
  · decide
  · rename_i function key hterminal
    have hfunction : Steady (function.function ++ "(") := by cases function <;> decide
    exact (hd.aggregate function key hterminal).enclosed hfunction (by decide)

/-- The clauses of the selection of a draft are steady. -/
theorem Texts.steadyParts (hd : d.Texts Steady) (hname : isIdentifier table.name = true)
    (hcolumns : ∀ c ∈ table.columns, isIdentifier c.name = true) :
    (d.select table).SteadyParts where
  columns := hd.steady_columns hcolumns
  source := steady_of_isIdentifier hname
  filter := hd.filter
  grouping := by simp [select]
  ordering := by
    intro text htext
    simp only [select] at htext
    split at htext
    · cases htext
      exact steady_intercalate hd.keys
    · cases htext
end Draft

/-! ## Columns -/

/-- A projection that lists columns of a table, or all that there are. -/
def ListsColumns (table : Table) (projection : String) : Prop :=
  projection = "*" ∨ ∃ names : List String, names ≠ [] ∧
    (∀ name ∈ names, name ∈ table.columns.map Column.name) ∧
      projection = ", ".intercalate names

/-- The columns of a table are listed. -/
theorem listsColumns_columnsOf (table : Table) : ListsColumns table (Select.columnsOf table) := by
  unfold Select.columnsOf
  split
  · exact .inl rfl
  · rename_i hcolumns
    refine .inr ⟨table.columns.map Column.name, ?_, fun _ hname => hname, rfl⟩
    simpa using hcolumns

/-- Texts without a character have none of it with commas between them. -/
theorem notMem_intercalate {c : Char} (hcomma : c ∉ (", " : String).toList) {texts : List String}
    (h : ∀ text ∈ texts, c ∉ text.toList) : c ∉ (", ".intercalate texts).toList := by
  apply list_property (P := fun text => c ∉ text.toList) (by simp) _ h
  intro first rest hfirst hrest
  simp only [String.toList_append, List.mem_append, not_or]
  exact ⟨⟨hfirst, hcomma⟩, hrest⟩

/-- A list of columns has no parenthesis. -/
theorem ListsColumns.parenthesis_notMem {table : Table} {projection : String}
    (h : ListsColumns table projection)
    (hcolumns : ∀ c ∈ table.columns, isIdentifier c.name = true) : '(' ∉ projection.toList := by
  rcases h with rfl | ⟨names, -, hnames, rfl⟩
  · decide
  · apply notMem_intercalate (by decide)
    intro name hname
    obtain ⟨c, hc, rfl⟩ := List.mem_map.1 (hnames name hname)
    exact notMem_of_isIdentifier (hcolumns c hc) (by decide)

/-- What is computed in place of the rows is no list of columns. -/
theorem Draft.columns_ne {table : Table} {d : Draft} {terminal : Terminal}
    (hd : d.terminal = some terminal) (hany : terminal ≠ .any)
    (hcolumns : ∀ c ∈ table.columns, isIdentifier c.name = true) {projection before after : String}
    (h : ListsColumns table projection) :
    d.columns table ++ ", ROW_NUMBER() OVER (" ++ before ≠
      projection ++ ", ROW_NUMBER()" ++ after := by
  obtain ⟨name, body, hname, hbody⟩ : ∃ name body, isIdentifier name = true ∧
      d.columns table = name ++ "(" ++ body := by
    unfold Draft.columns
    rw [hd]
    cases terminal with
    | count => exact ⟨"COUNT", "*)", by decide, rfl⟩
    | any => exact absurd rfl hany
    | aggregate function key =>
      refine ⟨function.function, key ++ ")", by cases function <;> decide, ?_⟩
      simp only [String.append_assoc]
  have hcall : ", ROW_NUMBER()" = ", ROW_NUMBER" ++ "(" ++ ")" := rfl
  have hleft : d.columns table ++ ", ROW_NUMBER() OVER (" ++ before =
      name ++ ("(" ++ (body ++ ", ROW_NUMBER() OVER (" ++ before)) := by
    rw [hbody]
    simp only [String.append_assoc]
  have hright : projection ++ ", ROW_NUMBER()" ++ after =
      projection ++ ", ROW_NUMBER" ++ ("(" ++ (")" ++ after)) := by
    rw [hcall]
    simp only [String.append_assoc]
  have hlist : '(' ∉ (projection ++ ", ROW_NUMBER").toList := by
    simpa using h.parenthesis_notMem hcolumns
  intro heq
  rw [hleft, hright] at heq
  have hfront := congrArg beforeParenthesis heq
  rw [beforeParenthesis_append, beforeParenthesis_append, beforeParenthesis_of_notMem hlist]
    at hfront
  have hblank : ' ' ∈ beforeParenthesis name := by
    rw [hfront]
    simp
  exact blank_notMem_beforeParenthesis (notMem_of_isIdentifier hname (by decide)) hblank

/-! ## Statements -/

/-- The text of a statement of a query keeps the named query in its place: it opens the statement or
is not there, a question for any row has a plain selection inside, and what is selected with the row
numbers is a list of columns. -/
structure KeepsNamedQuery (q : Query) (text : String) : Prop where
  atStart : ∀ before after, text = before ++ opening ++ after → before = ""
  plain : q.operators.any Operator.asksAny = true →
    ∃ rest, text = Draft.existsText ("SELECT " ++ rest)
  columns : ∀ rest, text = opening ++ rest → ∃ projection after,
    ListsColumns q.table projection ∧ rest = "SELECT " ++ projection ++ ", ROW_NUMBER()" ++ after

/-- A steady text has no named query to keep. -/
theorem keepsNamedQuery_of_steady {q : Query} {text : String} (h : Steady text)
    (hplain : q.operators.any Operator.asksAny = true →
      ∃ rest, text = Draft.existsText ("SELECT " ++ rest)) : KeepsNamedQuery q text where
  atStart before after htext := absurd ⟨before, after, htext⟩ h.not_contains
  plain := hplain
  columns rest htext := by
    apply absurd _ h.not_contains
    exact ⟨"", rest, by rw [String.empty_append]; exact htext⟩

section

variable {q : Query} {d : Draft}

/-- Without row numbers, a named query is not there. -/
theorem keepsNamedQuery_of_not_numbered (hparts : (d.select q.table).SteadyParts)
    (hany : d.terminal = some .any ↔ q.operators.any Operator.asksAny = true) {p : Paging}
    (hp : ∀ past upTo, p ≠ .numbered past upTo) :
    KeepsNamedQuery q (d.asked ((d.select q.table).text p)) := by
  have hsteady := hparts.steady_text hp
  apply keepsNamedQuery_of_steady
  · rw [Draft.asked]
    split
    · exact hsteady.enclosed (show Steady "SELECT (CASE WHEN EXISTS(" by decide)
        (show Steady ") THEN 1 ELSE 0 END)" by decide)
    · exact hsteady
  · intro hasks
    obtain ⟨rest, hrest⟩ := (d.select q.table).exists_text_eq hp
    exact ⟨rest, by rw [Draft.asked, if_pos (hany.2 hasks), hrest]⟩

/-- Where the rows themselves are asked for, the named query opens the statement and selects the
columns of the table. -/
theorem keepsNamedQuery_of_rows (hparts : (d.select q.table).SteadyParts)
    (hany : d.terminal = some .any ↔ q.operators.any Operator.asksAny = true)
    (hterminal : d.terminal = none) (past : UInt64) (upTo : Option UInt64) :
    KeepsNamedQuery q (d.asked ((d.select q.table).text (.numbered past upTo))) := by
  obtain ⟨behind, htext, hsteady⟩ := hparts.text_numbered past upTo
  have hcolumns : (d.select q.table).columns = Select.columnsOf q.table := by
    simp only [Draft.select, Draft.columns, hterminal]
  have hcall : ", ROW_NUMBER() OVER (" = ", ROW_NUMBER()" ++ " OVER (" := rfl
  rw [Draft.asked, if_neg (by rw [hterminal]; decide), htext]
  refine ⟨fun before after h => eq_empty_of_opening hsteady h, ?_, ?_⟩
  · intro hasks
    rw [hany.2 hasks] at hterminal
    cases hterminal
  · intro rest hrest
    refine ⟨Select.columnsOf q.table, " OVER (" ++ behind, listsColumns_columnsOf q.table, ?_⟩
    rw [← (String.append_right_inj opening).1 hrest, hcolumns, hcall]
    simp only [String.append_assoc]

/-- Where something is asked for in place of the rows, the named query is inside of a question or
selects what is computed. -/
theorem not_keepsNamedQuery (hparts : (d.select q.table).SteadyParts)
    (hcolumns : ∀ c ∈ q.table.columns, isIdentifier c.name = true) {terminal : Terminal}
    (hterminal : d.terminal = some terminal) (past : UInt64) (upTo : Option UInt64) :
    ¬ KeepsNamedQuery q (d.asked ((d.select q.table).text (.numbered past upTo))) := by
  obtain ⟨behind, htext, -⟩ := hparts.text_numbered past upTo
  rw [htext]
  intro hkeeps
  by_cases hany : terminal = .any
  · have hasked (text : String) : d.asked text =
        "SELECT (CASE WHEN EXISTS(" ++ text ++ ") THEN 1 ELSE 0 END)" := by
      rw [Draft.asked, if_pos (by rw [hterminal, hany])]
      rfl
    rw [hasked] at hkeeps
    have hempty := hkeeps.atStart "SELECT (CASE WHEN EXISTS("
      ("SELECT " ++ (d.select q.table).columns ++ ", ROW_NUMBER() OVER (" ++ behind ++
        ") THEN 1 ELSE 0 END)") (by simp only [String.append_assoc])
    exact absurd hempty (by decide)
  · have hasked (text : String) : d.asked text = text := by
      rw [Draft.asked, if_neg (by rw [hterminal]; exact fun h => hany (Option.some.inj h))]
    rw [hasked] at hkeeps
    obtain ⟨projection, after, hlists, hrest⟩ := hkeeps.columns _ rfl
    have hne : d.columns q.table ++ ", ROW_NUMBER() OVER (" ++ behind ≠
        projection ++ ", ROW_NUMBER()" ++ after :=
      Draft.columns_ne hterminal hany hcolumns hlists
    apply hne
    simp only [String.append_assoc] at hrest ⊢
    exact (String.append_right_inj "SELECT ").1 hrest

end

/-- Over a table with identifiers as names, the statement of a query keeps the named query in its
place unless rows are numbered to leave some out and something is asked for in place of them. -/
theorem keepsNamedQuery_iff {q : Query} {dialect : Dialect} {s : Statement}
    (hname : isIdentifier q.table.name = true)
    (hcolumns : ∀ c ∈ q.table.columns, isIdentifier c.name = true)
    (h : q.statement dialect = .ok s) :
    KeepsNamedQuery q s.text ↔
      ¬ (dialect = .rowNumber ∧ q.operators.any Operator.skips = true ∧
        q.operators.any Operator.isTerminal = true) := by
  obtain ⟨d, hdraft, hs⟩ := bind_eq_ok.1 h
  obtain ⟨p, hp, htext, -⟩ := Draft.statement_eq_ok hs
  have hd : d.Texts Steady :=
    Draft.texts_run (Draft.kept_steady hcolumns) (Draft.texts_empty _) hdraft
  have hparts := hd.steadyParts hname hcolumns
  have hskips : d.skip.isSome = q.operators.any Operator.skips := Draft.skip_run hdraft
  obtain ⟨hterminal, hany⟩ := Draft.terminal_run_eq hdraft rfl
  have hselected : (d.select q.table).skip = d.skip := rfl
  rw [htext, ← hskips, ← hterminal]
  cases Select.paging_eq_ok_iff.1 hp with
  | first _ hskip =>
    rw [← hselected, hskip]
    exact iff_of_true (keepsNamedQuery_of_not_numbered hparts hany (by simp)) (by simp)
  | window _ _ _ =>
    exact iff_of_true (keepsNamedQuery_of_not_numbered hparts hany (by simp)) (by simp)
  | offset _ _ =>
    exact iff_of_true (keepsNamedQuery_of_not_numbered hparts hany (by simp)) (by simp)
  | numbered hskip _ _ =>
    rw [← hselected, hskip]
    cases hasked : d.terminal with
    | none => exact iff_of_true (keepsNamedQuery_of_rows hparts hany hasked _ _) (by simp)
    | some terminal =>
      exact iff_of_false (not_keepsNamedQuery hparts hcolumns hasked _ _) (by simp)

/-- All people but the youngest. -/
def allButFirst : Query where
  table := agedPeople
  operators :=
    [.orderBy .ascending (.field (.row 0) "Age" .int32), .skip (.value (.int32 1))]

/-- Whether there is anybody but the youngest. -/
def anyButFirst : Query where
  table := agedPeople
  operators :=
    [.orderBy .ascending (.field (.row 0) "Age" .int32), .skip (.value (.int32 1)), .any none]

/-- Rows that are left out by their numbers have a named query in front. -/
theorem keepsNamedQuery_allButFirst :
    isIdentifier allButFirst.table.name = true ∧
      (∀ c ∈ allButFirst.table.columns, isIdentifier c.name = true) ∧
      ∃ s, allButFirst.statement .rowNumber = .ok s ∧
        s.text = "WITH Results_CTE AS (SELECT Age, ROW_NUMBER() OVER (ORDER BY Age) AS " ++
          "__RowNum__ FROM People) SELECT * FROM Results_CTE WHERE __RowNum__ > 1" ∧
        KeepsNamedQuery allButFirst s.text := by
  have hname : isIdentifier allButFirst.table.name = true := by decide
  have hcolumns : ∀ c ∈ allButFirst.table.columns, isIdentifier c.name = true := by decide
  have hs : allButFirst.statement .rowNumber = .ok
      { text := "WITH Results_CTE AS (SELECT Age, ROW_NUMBER() OVER (ORDER BY Age) AS " ++
          "__RowNum__ FROM People) SELECT * FROM Results_CTE WHERE __RowNum__ > 1"
        sources := []
        limiter := none } := by
    rfl
  exact ⟨hname, hcolumns, _, hs, rfl, (keepsNamedQuery_iff hname hcolumns hs).2 (by decide)⟩

set_option maxRecDepth 1000 in
/-- A question for a row has the named query inside where it is asked of rows that are left out by
their numbers. -/
theorem not_keepsNamedQuery_anyButFirst :
    ∃ s, anyButFirst.statement .rowNumber = .ok s ∧
      s.text = "SELECT (CASE WHEN EXISTS(" ++ "WITH Results_CTE AS (" ++
        ("SELECT '', ROW_NUMBER() OVER (ORDER BY Age) AS __RowNum__ FROM People) " ++
          "SELECT * FROM Results_CTE WHERE __RowNum__ > 1) THEN 1 ELSE 0 END)") ∧
      ¬ KeepsNamedQuery anyButFirst s.text := by
  obtain ⟨s, hs, htext⟩ : ∃ s, anyButFirst.statement .rowNumber = .ok s ∧
      s.text = "SELECT (CASE WHEN EXISTS(" ++ opening ++
        ("SELECT '', ROW_NUMBER() OVER (ORDER BY Age) AS __RowNum__ FROM People) " ++
          "SELECT * FROM Results_CTE WHERE __RowNum__ > 1) THEN 1 ELSE 0 END)") :=
    ⟨_, rfl, rfl⟩
  refine ⟨s, hs, htext, ?_⟩
  intro hkeeps
  have hempty := hkeeps.atStart _ _ htext
  exact absurd hempty (by decide)

end RowQuery.Query
