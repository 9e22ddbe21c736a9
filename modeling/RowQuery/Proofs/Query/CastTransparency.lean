import RowQuery.Proofs.Query.Counts
import RowQuery.Proofs.Sql.Operands
import RowQuery.Proofs.Sql.PlacedTerms

/-!
# Conversions in queries

A conversion of an expression over the row is meant to leave no trace in a statement.  But a
condition is made of a bare truth value by looking at its outermost node, so a converted member that
is true or false stands as a condition without its comparison.  This module says that this is the
only place where a conversion matters.

Main results:

- Definitions {lit}`Role` and {lit}`CastsTransparent`: where an expression stands in a query, and
  that its parts can be converted there.
- Definition {lit}`LosesTest`: a bare truth value stands for a condition in an accepted query.
- Theorem {lit}`castsTransparent_iff`: conversions leave no trace exactly at all other places.
-/

namespace RowQuery.Query

open Outcome
open Sql

/-! ## Roles -/

/-- An operator that takes an expression over a row. -/
inductive Role where
  | filter
  | count
  | any
  | orderBy (direction : Direction)
  | thenBy (direction : Direction)
  | aggregate (function : Aggregate)
  | select
  | groupBy

namespace Role

/-- The operator with its expression. -/
def operator : Role → Expr → Operator
  | filter, e => .filter e
  | count, e => .count (some e)
  | any, e => .any (some e)
  | orderBy direction, e => .orderBy direction e
  | thenBy direction, e => .thenBy direction e
  | aggregate function, e => .aggregate function e
  | select, e => .select e
  | groupBy, e => .groupBy e

/-- The operator takes a condition, or a key as it is. -/
def kind : Role → Expr.Frame.Kind
  | filter | count | any => .condition
  | orderBy _ | thenBy _ | aggregate _ | select | groupBy => .plain

/-- The query with the operator between others. -/
def query (r : Role) (table : Table) (before after : List Operator) (e : Expr) : Query :=
  ⟨table, before ++ r.operator e :: after⟩

/-- The term of the folded expression as the operator takes it, behind constants recorded before. -/
def read (r : Role) (table : Table) (e : Expr) (before : List Value) :
    Except Fault (Term × List Value) := do
  (takenAs r.kind table (← e.foldLocal)).run before

end Role

/-- At a place in the expression of an operator, a conversion of what stands there to any type
leaves every query with the operator as it is, with its fault or its statement for each dialect. -/
def CastsTransparent (table : Table) (r : Role) (C : List Expr.Frame) (t : Expr) : Prop :=
  ∀ (before after : List Operator) (ty : Ty) (dialect : Dialect),
    (r.query table before after (Expr.plug C (.cast t ty))).statement dialect =
      (r.query table before after (Expr.plug C t)).statement dialect

/-- A bare truth value stands where a condition is expected, it is written, and some
query with it is accepted. -/
structure LosesTest (table : Table) (r : Role) (C : List Expr.Frame) (t : Expr) : Prop where
  condition : Expr.innermost r.kind C = .condition
  bare : t.isBareTruth = true
  written : .nothing ∉ C.map Expr.Frame.kind
  accepted : ∃ before after dialect s,
    (r.query table before after (Expr.plug C t)).statement dialect = .ok s

variable {table : Table} {r : Role} {C : List Expr.Frame} {t e e' : Expr}

/-! ## What an operator reads -/

/-- An expression that holds the row and a conversion of it fold alike at every place. -/
theorem agree_foldLocal_plug (hrow : t.mentionsRow = true) (C : List Expr.Frame) (ty : Ty) :
    Agree (Expr.CastApart ty C t) (Expr.plug C t).foldLocal (Expr.plug C (.cast t ty)).foldLocal :=
  Expr.agree_fold_plug hrow ty C

/-- Where a conversion leaves no trace in terms, an operator reads the same. -/
theorem read_plug_cast (hrow : t.mentionsRow = true)
    (hobject : Expr.innermost r.kind C = .object → t.isRow = false)
    (h : ¬ (Expr.innermost r.kind C = .condition ∧ t.isBareTruth = true ∧
      .nothing ∉ C.map Expr.Frame.kind)) (ty : Ty) (before : List Value) :
    r.read table (Expr.plug C (.cast t ty)) before = r.read table (Expr.plug C t) before := by
  refine Eq.symm (Agree.eq ((agree_foldLocal_plug hrow C ty).bind ?_))
  rintro _ _ ⟨C', t', rfl, rfl, hkinds, hrow', hisRow, hbare⟩
  have hinnermost := Expr.innermost_congr hkinds r.kind
  have hterm := takenAs_plug_cast table hrow' C' r.kind ty
    (by rwa [hinnermost, hisRow]) (by rwa [hinnermost, hbare, hkinds])
  rw [hterm]
  exact .refl (fun _ => rfl) _

/-- Where a bare truth value loses its comparison, an operator reads a shorter term. -/
theorem shorter_read_plug_cast (table : Table) (hrow : t.mentionsRow = true)
    (hcondition : Expr.innermost r.kind C = .condition) (hbare : t.isBareTruth = true)
    (hwritten : .nothing ∉ C.map Expr.Frame.kind) (ty : Ty) (before : List Value) :
    Agree (fun a b => Shorter a.1 b.1 ∧ a.2 = b.2) (r.read table (Expr.plug C t) before)
      (r.read table (Expr.plug C (.cast t ty)) before) := by
  refine (agree_foldLocal_plug hrow C ty).bind ?_
  rintro _ _ ⟨C', t', rfl, rfl, hkinds, hrow', _, hbare'⟩
  have hinnermost := Expr.innermost_congr hkinds r.kind
  exact shorter_plug_cast table hrow' C' r.kind ty (hinnermost.trans hcondition)
    (hbare'.trans hbare) (hkinds ▸ hwritten) before

/-! ## What an operator makes of it -/

/-- A condition is what its operator reads, with the constants that come in. -/
theorem conditionBehind_eq (hr : r.kind = .condition) (recorded : List Value) :
    Draft.conditionBehind table recorded e = (r.read table e recorded).map fun a =>
      (⟨a.1.text, a.2.drop recorded.length⟩, a.2) := by
  rw [Role.read, hr]
  unfold Draft.conditionBehind
  cases e.foldLocal with
  | error f => rfl
  | ok e' =>
    change ((Term.ofCondition table e').run recorded >>= _) =
      Except.map _ ((Term.ofCondition table e').run recorded)
    cases (Term.ofCondition table e').run recorded <;> rfl

/-- A key is what its operator reads, as long as no constant is recorded. -/
theorem keyText_eq (hr : r.kind = .plain) (operator : String) :
    Draft.keyText table operator e = (r.read table e [] >>= fun a =>
      if a.2.isEmpty then .ok a.1.text
      else .error (Fault.unsupported (.overConstant operator))) := by
  rw [Role.read, hr]
  rfl

/-- The name of an operator does not depend on its expression. -/
theorem Role.name_operator (r : Role) (e e' : Expr) :
    (r.operator e).name = (r.operator e').name := by
  cases r with
  | orderBy direction | thenBy direction => cases direction <;> rfl
  | _ => rfl

/-- Operators that read the same are the same to a draft. -/
theorem apply_operator_congr (h : ∀ before, r.read table e before = r.read table e' before)
    (d : Draft) : Draft.apply table d (r.operator e) = Draft.apply table d (r.operator e') := by
  have hname := r.name_operator e e'
  have hfilter (hr : r.kind = .condition) : d.addFilter table e = d.addFilter table e' := by
    rw [Draft.addFilter_eq, Draft.addFilter_eq, conditionBehind_eq hr, conditionBehind_eq hr, h]
  have hkey (hr : r.kind = .plain) (operator : String) :
      Draft.keyText table operator e = Draft.keyText table operator e' := by
    rw [keyText_eq hr, keyText_eq hr, h]
  rw [Draft.apply.eq_def, Draft.apply.eq_def, hname]
  cases d.terminal with
  | some terminal => rfl
  | none =>
    cases r with
    | filter => exact hfilter rfl
    | count | any =>
      simp only [Role.operator, Draft.addOperator, Draft.addFilter?, hfilter rfl]
    | orderBy direction | thenBy direction =>
      simp only [Role.operator] at hname
      simp only [Role.operator, Draft.addOperator, Draft.addKey, hkey rfl, hname]
    | aggregate function => simp only [Role.operator, Draft.addOperator, hkey rfl, Operator.name]
    | select | groupBy => rfl

/-- Operators that read alike are refused alike. -/
theorem agree_apply_operator {rel : Term → Term → Prop}
    (h : ∀ before, Agree (fun a b => rel a.1 b.1 ∧ a.2 = b.2) (r.read table e before)
      (r.read table e' before)) (d : Draft) :
    Agree (fun _ _ => True) (Draft.apply table d (r.operator e))
      (Draft.apply table d (r.operator e')) := by
  have hname := r.name_operator e e'
  have hfilter (hr : r.kind = .condition) :
      Agree (fun _ _ => True) (d.addFilter table e) (d.addFilter table e') := by
    rw [Draft.addFilter_eq, Draft.addFilter_eq, conditionBehind_eq hr, conditionBehind_eq hr,
      map_map, map_map]
    exact (h d.values).map fun _ _ _ => trivial
  have hkey (hr : r.kind = .plain) (operator : String) : Agree (fun _ _ => True)
      (Draft.keyText table operator e) (Draft.keyText table operator e') := by
    rw [keyText_eq hr, keyText_eq hr]
    refine (h []).bind ?_
    rintro a b ⟨_, hrecorded⟩
    rw [hrecorded]
    split
    · exact .ok trivial
    · exact .error _
  rw [Draft.apply.eq_def, Draft.apply.eq_def, hname]
  cases d.terminal with
  | some terminal => exact .error _
  | none =>
    cases r with
    | filter => exact hfilter rfl
    | count | any => exact (hfilter rfl).bind fun a b _ => .ok trivial
    | orderBy direction =>
      simp only [Role.operator] at hname
      simp only [Role.operator, Draft.addOperator, hname]
      exact (hkey rfl _).bind fun _ _ _ => .ok trivial
    | thenBy direction =>
      simp only [Role.operator] at hname
      simp only [Role.operator, Draft.addOperator, hname]
      split
      · exact .error _
      · exact (hkey rfl _).bind fun _ _ _ => .ok trivial
    | aggregate function => exact (hkey rfl _).bind fun _ _ _ => .ok trivial
    | select | groupBy => exact .error _

/-! ## Queries with nothing else -/

/-- The constants that an operator lets its expression record: a condition any, a key none.  A
projection is refused whatever it is. -/
def Role.Takes : Role → List Value → Prop
  | filter, _ | count, _ | any, _ => True
  | orderBy _, recorded | thenBy _, recorded | aggregate _, recorded => recorded = []
  | select, _ | groupBy, _ => False

/-- An operator that needs others in front has them. -/
def Role.inFront (e : Expr) : Role → List Operator
  | thenBy _ => [.orderBy .ascending e]
  | _ => []

/-- A condition that is added somewhere is read anywhere. -/
theorem read_of_addFilter (hr : r.kind = .condition) {d d' : Draft}
    (h : d.addFilter table e = .ok d') : ∃ s recorded, r.read table e [] = .ok (s, recorded) := by
  rw [Draft.addFilter_eq, conditionBehind_eq hr, map_map, map_eq_ok] at h
  rcases h with ⟨a, hread, _⟩
  rcases bind_eq_ok.1 hread with ⟨e', hfold, hrun⟩
  rw [hr, takenAs_condition, Term.ofCondition, run_bind_eq_ok] at hrun
  rcases hrun with ⟨t, _, ht, _⟩
  rcases run_of_renderable (renderable_of_run ht) [] with ⟨s, recorded, hs⟩
  refine ⟨e'.asCondition s, recorded, bind_eq_ok.2 ⟨e', hfold, ?_⟩⟩
  rw [hr, takenAs_condition, Term.ofCondition, run_bind_eq_ok]
  exact ⟨s, recorded, hs, rfl⟩

/-- A key with a text is read without constants. -/
theorem keyText_eq_ok (hr : r.kind = .plain) {operator text : String} :
    Draft.keyText table operator e = .ok text ↔
      ∃ s, r.read table e [] = .ok (s, []) ∧ s.text = text := by
  rw [keyText_eq hr, bind_eq_ok]
  constructor
  · rintro ⟨⟨s, recorded⟩, hread, h⟩
    cases recorded with
    | nil =>
      cases h
      exact ⟨s, hread, rfl⟩
    | cons v recorded => cases h
  · rintro ⟨s, hread, rfl⟩
    exact ⟨(s, []), hread, rfl⟩

/-- An operator that is accepted reads a term with constants that it takes. -/
theorem read_of_apply {d d' : Draft} (h : Draft.apply table d (r.operator e) = .ok d') :
    ∃ s recorded, r.read table e [] = .ok (s, recorded) ∧ r.Takes recorded := by
  have hcondition (hr : r.kind = .condition) (htakes : ∀ recorded, r.Takes recorded) {d₁ : Draft}
      (h : d.addFilter? table (some e) = .ok d₁) :
      ∃ s recorded, r.read table e [] = .ok (s, recorded) ∧ r.Takes recorded := by
    rcases read_of_addFilter hr h with ⟨s, recorded, hread⟩
    exact ⟨s, recorded, hread, htakes recorded⟩
  have hkey (hr : r.kind = .plain) (htakes : r.Takes []) {operator text : String}
      (h : Draft.keyText table operator e = .ok text) :
      ∃ s recorded, r.read table e [] = .ok (s, recorded) ∧ r.Takes recorded := by
    rcases (keyText_eq_ok hr).1 h with ⟨s, hread, _⟩
    exact ⟨s, [], hread, htakes⟩
  have hadds := (Draft.apply_eq_ok.1 h).2
  cases r with
  | filter =>
    cases hadds with
    | filter hfilter => exact hcondition rfl (fun _ => trivial) hfilter
  | count =>
    cases hadds with
    | count hfilter => exact hcondition rfl (fun _ => trivial) hfilter
  | any =>
    cases hadds with
    | any hfilter => exact hcondition rfl (fun _ => trivial) hfilter
  | orderBy direction =>
    cases hadds with
    | orderBy hadd =>
      rcases bind_eq_ok.1 hadd with ⟨text, htext, _⟩
      exact hkey rfl rfl htext
  | thenBy direction =>
    cases hadds with
    | thenBy _ hadd =>
      rcases bind_eq_ok.1 hadd with ⟨text, htext, _⟩
      exact hkey rfl rfl htext
  | aggregate function =>
    cases hadds with
    | aggregate htext => exact hkey rfl rfl htext
  | select | groupBy => cases hadds

/-- What stands behind a key for its direction. -/
def Direction.suffix : Direction → String
  | ascending => ""
  | descending => " DESC"

/-- The first condition of a query is what its operator reads. -/
theorem addFilter_empty (hr : r.kind = .condition) {s : Term} {recorded : List Value}
    (h : r.read table e [] = .ok (s, recorded)) :
    Draft.empty.addFilter? table (some e) =
      .ok { Draft.empty with values := recorded, filter := some ⟨s.text, recorded⟩ } := by
  rw [Draft.addFilter?, Draft.addFilter_eq, conditionBehind_eq hr]
  change Except.map _ (Except.map _ (r.read table e [])) = _
  rw [h]
  rfl

/-- A query with one operator has the statement of its draft. -/
theorem statement_single {op : Operator} {d : Draft} (h : Draft.apply table Draft.empty op = .ok d)
    (dialect : Dialect) :
    Query.statement ⟨table, [op]⟩ dialect = d.statement table dialect := by
  rw [Query.statement, draft, List.foldlM_cons, h]
  rfl

/-- A query with two operators has the statement of its draft. -/
theorem statement_pair {op op' : Operator} {d d' : Draft}
    (h : Draft.apply table Draft.empty op = .ok d) (h' : Draft.apply table d op' = .ok d')
    (dialect : Dialect) :
    Query.statement ⟨table, [op, op']⟩ dialect = d'.statement table dialect := by
  rw [Query.statement, draft, List.foldlM_cons, h]
  change (Draft.apply table d op' >>= _) >>= _ = _
  rw [h']
  rfl

/-- A key that is read is added with its direction. -/
theorem addKey_of_read (hr : r.kind = .plain) {s : Term} (h : r.read table e [] = .ok (s, []))
    (operator : String) (direction : Direction) (d : Draft) :
    d.addKey table operator direction e =
      .ok { d with keys := d.keys ++ [s.text ++ direction.suffix] } := by
  rw [Draft.addKey, (keyText_eq_ok hr).2 ⟨s, h, rfl⟩]
  cases direction with
  | ascending =>
    rw [Direction.suffix, String.append_empty]
    rfl
  | descending => rfl

/-- An operator has a statement of its own for every expression that it can read, in which the text
of the term stands between the same texts. -/
theorem exists_statement_alone {e₀ : Expr} {s₀ : Term} {recorded₀ : List Value}
    (h₀ : r.read table e₀ [] = .ok (s₀, recorded₀)) (htakes₀ : r.Takes recorded₀) :
    ∃ front behind : String, ∀ {e s recorded}, r.read table e [] = .ok (s, recorded) →
      r.Takes recorded → ∃ st, (r.query table (r.inFront e₀) [] e).statement .top = .ok st ∧
        st.text = front ++ s.text ++ behind := by
  cases r with
  | filter =>
    refine ⟨(Draft.empty.select table).headText none ++ " WHERE ", "", ?_⟩
    intro e s recorded h _
    have hadds : Draft.Adds table Draft.empty (.filter e) _ := .filter (addFilter_empty rfl h)
    refine ⟨_, statement_single (Draft.apply_eq_ok.2 ⟨rfl, hadds⟩) .top, ?_⟩
    change _ ++ (" " ++ ("WHERE" ++ " " ++ s.text) ++ "") ++ "" = _
    simp only [String.append_assoc, String.append_empty]
    rfl
  | count =>
    refine ⟨"SELECT COUNT(*) FROM " ++ table.name ++ " WHERE ", "", ?_⟩
    intro e s recorded h _
    have hadds : Draft.Adds table Draft.empty (.count (some e)) _ := .count (addFilter_empty rfl h)
    refine ⟨_, statement_single (Draft.apply_eq_ok.2 ⟨rfl, hadds⟩) .top, ?_⟩
    change "SELECT" ++ " " ++ ("" ++ "COUNT(*)" ++ " " ++ ("FROM" ++ " " ++ table.name)) ++
      (" " ++ ("WHERE" ++ " " ++ s.text) ++ "") ++ "" = _
    simp only [String.append_assoc, String.append_empty]
    rfl
  | any =>
    refine ⟨"SELECT (CASE WHEN EXISTS(SELECT '' FROM " ++ table.name ++ " WHERE ",
      ") THEN 1 ELSE 0 END)", ?_⟩
    intro e s recorded h _
    have hadds : Draft.Adds table Draft.empty (.any (some e)) _ := .any (addFilter_empty rfl h)
    refine ⟨_, statement_single (Draft.apply_eq_ok.2 ⟨rfl, hadds⟩) .top, ?_⟩
    change "SELECT (CASE WHEN EXISTS(" ++
      ("SELECT" ++ " " ++ ("" ++ "''" ++ " " ++ ("FROM" ++ " " ++ table.name)) ++
        (" " ++ ("WHERE" ++ " " ++ s.text) ++ "") ++ "") ++ ") THEN 1 ELSE 0 END)" = _
    simp only [String.append_assoc, String.append_empty]
    rfl
  | orderBy direction =>
    refine ⟨(Draft.empty.select table).headText none ++ " ORDER BY ", direction.suffix, ?_⟩
    intro e s recorded h htakes
    cases htakes
    have hadds : Draft.Adds table Draft.empty (.orderBy direction e) _ :=
      .orderBy (addKey_of_read rfl h _ direction Draft.empty)
    refine ⟨_, statement_single (Draft.apply_eq_ok.2 ⟨rfl, hadds⟩) .top, ?_⟩
    change _ ++ ("" ++ "") ++ (" " ++ ("ORDER BY" ++ " " ++ (s.text ++ direction.suffix))) = _
    simp only [String.append_assoc, String.append_empty]
    rfl
  | thenBy direction =>
    cases htakes₀
    refine ⟨(Draft.empty.select table).headText none ++ " ORDER BY " ++ s₀.text ++ ", ",
      direction.suffix, ?_⟩
    intro e s recorded h htakes
    cases htakes
    have hfirst : Draft.Adds table Draft.empty (.orderBy .ascending e₀) _ :=
      .orderBy (addKey_of_read (r := .thenBy direction) rfl h₀ _ .ascending Draft.empty)
    have hsecond : Draft.Adds table
        { Draft.empty with keys := Draft.empty.keys ++ [s₀.text ++ Direction.ascending.suffix] }
        (.thenBy direction e) _ := .thenBy rfl (addKey_of_read rfl h _ direction _)
    refine ⟨_, statement_pair (Draft.apply_eq_ok.2 ⟨rfl, hfirst⟩)
      (Draft.apply_eq_ok.2 ⟨rfl, hsecond⟩) .top, ?_⟩
    change _ ++ ("" ++ "") ++
      (" " ++ ("ORDER BY" ++ " " ++ (s₀.text ++ "" ++ ", " ++ (s.text ++ direction.suffix)))) = _
    simp only [String.append_assoc, String.append_empty]
    rfl
  | aggregate function =>
    refine ⟨"SELECT " ++ function.function ++ "(", ") FROM " ++ table.name, ?_⟩
    intro e s recorded h htakes
    cases htakes
    have hadds : Draft.Adds table Draft.empty (.aggregate function e) _ :=
      .aggregate ((keyText_eq_ok rfl).2 ⟨s, h, rfl⟩)
    refine ⟨_, statement_single (Draft.apply_eq_ok.2 ⟨rfl, hadds⟩) .top, ?_⟩
    change "SELECT" ++ " " ++ ("" ++ (function.function ++ "(" ++ s.text ++ ")") ++ " " ++
      ("FROM" ++ " " ++ table.name)) ++ ("" ++ "") ++ "" = _
    simp only [String.append_assoc, String.append_empty]
    rfl
  | select | groupBy => cases htakes₀

/-! ## Transparency -/

/-- A query with an operator that is accepted has an operator that is accepted. -/
theorem read_of_statement {before after : List Operator} {dialect : Dialect} {st : Statement}
    (h : (r.query table before after e).statement dialect = .ok st) :
    ∃ s recorded, r.read table e [] = .ok (s, recorded) ∧ r.Takes recorded := by
  rcases bind_eq_ok.1 h with ⟨d, hdraft, _⟩
  rw [Role.query, Draft.draft_split] at hdraft
  rcases bind_eq_ok.1 hdraft with ⟨d₀, _, hdraft⟩
  rcases bind_eq_ok.1 hdraft with ⟨d₁, happly, _⟩
  exact read_of_apply happly

/-- A query goes on behind an operator with what that makes of the draft in front. -/
theorem statement_query (before after : List Operator) (dialect : Dialect) (e : Expr) :
    (r.query table before after e).statement dialect =
      draft ⟨table, before⟩ >>= fun d => Draft.apply table d (r.operator e) >>= fun d' =>
        after.foldlM (Draft.apply table) d' >>= fun d'' => d''.statement table dialect := by
  rw [Query.statement, Role.query, Draft.draft_split]
  simp only [bind_assoc]

/-- Operators that are the same to every draft are so in every query. -/
theorem statement_congr
    (h : ∀ d, Draft.apply table d (r.operator e) = Draft.apply table d (r.operator e'))
    (before after : List Operator) (dialect : Dialect) :
    (r.query table before after e).statement dialect =
      (r.query table before after e').statement dialect := by
  rw [statement_query, statement_query]
  simp only [h]

/-- An operator that is refused whenever it is read in some way is refused alike in another. -/
theorem statement_of_refused {rel : Term → Term → Prop}
    (h : ∀ before, Agree (fun a b => rel a.1 b.1 ∧ a.2 = b.2) (r.read table e before)
      (r.read table e' before))
    (hrefused : ∀ d d', Draft.apply table d (r.operator e) ≠ .ok d')
    (before after : List Operator) (dialect : Dialect) :
    (r.query table before after e').statement dialect =
      (r.query table before after e).statement dialect := by
  rw [statement_query, statement_query]
  cases draft ⟨table, before⟩ with
  | error f => rfl
  | ok d =>
    have hagree := agree_apply_operator h d
    change Draft.apply table d _ >>= _ = Draft.apply table d _ >>= _
    cases happly : Draft.apply table d (r.operator e) with
    | ok d' => exact absurd happly (hrefused d d')
    | error f =>
      rw [happly] at hagree
      cases happly' : Draft.apply table d (r.operator e') with
      | ok d' =>
        rw [happly'] at hagree
        cases hagree
      | error f' =>
        rw [happly'] at hagree
        cases hagree
        rfl

/-- Where a bare truth value loses its comparison, two statements tell it from its conversion. -/
theorem not_castsTransparent (hrow : t.mentionsRow = true) (h : LosesTest table r C t) :
    ¬ CastsTransparent table r C t := by
  intro htransparent
  rcases h with ⟨hcondition, hbare, hwritten, before, after, dialect, st, hst⟩
  rcases read_of_statement hst with ⟨s, recorded, hread, htakes⟩
  have hshorter := shorter_read_plug_cast table hrow hcondition hbare hwritten .int32 []
  rw [hread] at hshorter
  cases hcast : r.read table (Expr.plug C (.cast t .int32)) [] with
  | error f =>
    rw [hcast] at hshorter
    cases hshorter
  | ok a =>
    rcases a with ⟨s', recorded'⟩
    rw [hcast] at hshorter
    cases hshorter with
    | ok hrel =>
      rcases hrel with ⟨hlength, hrecorded⟩
      cases hrecorded
      rcases exists_statement_alone hread htakes with ⟨front, behind, halone⟩
      rcases halone hread htakes with ⟨st₁, hst₁, htext₁⟩
      rcases halone hcast htakes with ⟨st₂, hst₂, htext₂⟩
      have hsame := htransparent (r.inFront (Expr.plug C t)) [] .int32 .top
      rw [hst₁, hst₂] at hsame
      cases hsame
      have hlengths := congrArg String.length (htext₁.symm.trans htext₂)
      simp only [String.length_append, Shorter] at hlengths hlength
      omega

/-- Conversions of an expression over the row leave no trace exactly where no bare truth value loses
its comparison with one.  The row below a member is no place of its own. -/
theorem castsTransparent_iff (hrow : t.mentionsRow = true)
    (hobject : Expr.innermost r.kind C = .object → t.isRow = false) :
    CastsTransparent table r C t ↔ ¬ LosesTest table r C t := by
  refine ⟨fun h hloses => not_castsTransparent hrow hloses h, ?_⟩
  intro hloses before after ty dialect
  by_cases hplace : Expr.innermost r.kind C = .condition ∧ t.isBareTruth = true ∧
      .nothing ∉ C.map Expr.Frame.kind
  · rcases hplace with ⟨hcondition, hbare, hwritten⟩
    refine statement_of_refused
      (shorter_read_plug_cast table hrow hcondition hbare hwritten ty) ?_ before after dialect
    intro d d' happly
    rcases read_of_apply happly with ⟨s, recorded, hread, htakes⟩
    rcases exists_statement_alone hread htakes with ⟨_, _, halone⟩
    rcases halone hread htakes with ⟨st, hst, _⟩
    exact hloses ⟨hcondition, hbare, hwritten, _, _, _, st, hst⟩
  · exact statement_congr (apply_operator_congr (read_plug_cast hrow hobject hplace ty)) before
      after dialect

/-- Being active can be converted on the left of a comparison, and not where it is the condition. -/
theorem castsTransparent_active :
    active.mentionsRow = true ∧ active.isRow = false ∧
      CastsTransparent membership .filter
        [.left (.compare .eq) (.captured "wanted" (.bool true))] active ∧
      ¬ CastsTransparent membership .filter [] active := by
  refine ⟨rfl, rfl, ?_, ?_⟩
  · refine (castsTransparent_iff rfl fun _ => rfl).2 fun h => ?_
    cases h.condition
  · intro h
    have hkept := (castsTransparent_iff rfl fun _ => rfl).1 h
    exact hkept ⟨rfl, rfl, nofun, [], [], .top, _, rfl⟩

/-- The people who are active, and those for whom it is the same as a number, have different
statements. -/
theorem converted_active :
    (Role.filter.query membership [] [] active).statement .top =
        .ok ⟨"SELECT Active FROM People WHERE (Active = 1)", [⟨"(Active = 1)", []⟩], none⟩ ∧
      (Role.filter.query membership [] [] (.cast active .int32)).statement .top =
        .ok ⟨"SELECT Active FROM People WHERE Active", [⟨"Active", []⟩], none⟩ ∧
      ¬ CastsTransparent membership .filter [] active := by
  have hplain : (Role.filter.query membership [] [] active).statement .top =
      .ok ⟨"SELECT Active FROM People WHERE (Active = 1)", [⟨"(Active = 1)", []⟩], none⟩ := by rfl
  have hcast : (Role.filter.query membership [] [] (.cast active .int32)).statement .top =
      .ok ⟨"SELECT Active FROM People WHERE Active", [⟨"Active", []⟩], none⟩ := by rfl
  refine ⟨hplain, hcast, ?_⟩
  intro h
  have hsame := h [] [] .int32 .top
  change (Role.filter.query membership [] [] (.cast active .int32)).statement .top =
    (Role.filter.query membership [] [] active).statement .top at hsame
  rw [hplain, hcast] at hsame
  simp at hsame

end RowQuery.Query
