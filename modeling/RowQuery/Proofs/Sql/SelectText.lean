import RowQuery.Proofs.Sql.TermText
import RowQuery.Sql.Select

/-!
# Placeholders in the text of a selection

The statement of a selection is put together from its clauses: one behind the other in their
usual order, or inside of a named query that has the ordering behind the columns when the rows
are numbered.  The pieces between them have no placeholders.

Main results:

- Definition {lit}`Select.Reads`: the placeholders of each clause of a selection.
- Theorem {lit}`Select.Reads.scans_text`: however the window is taken, the text of the selection
  has the placeholders of the clauses in the order in which it has the clauses.
-/

namespace RowQuery.Sql

/-! ## Clauses -/

/-- The keyword of a clause and the blank behind it yield nothing. -/
theorem yields_keyword (k : Clause) : Yields (k.keyword ++ " ") [] := by
  have hquiet : Quiet (k.keyword ++ " ") := by cases k <;> decide
  exact hquiet.yields

/-- A keyword does not matter in front of a text. -/
theorem Yields.write {body : String} {names : List String} (h : Yields body names) (k : Clause) :
    Yields (k.write body) names :=
  (yields_keyword k).append h

/-- A keyword does not matter in front of a text that an end has to follow. -/
theorem Scans.write {body : String} {names : List String} (h : Scans body names) (k : Clause) :
    Scans (k.write body) names :=
  (yields_keyword k).append_scans h

/-- A clause that may be missing has the placeholders of its body. -/
theorem scans_clauseText (k : Clause) {body : Option String} {names : List String}
    (h : Scans (body.getD "") names) : Scans (Select.clauseText k body) names := by
  cases body with
  | none => exact h
  | some text =>
    have hblank : Yields " " [] := (show Quiet " " by decide).yields
    exact hblank.append_scans (h.write k)

/-- A clause that may be missing starts with a blank if it is there. -/
theorem ends_clauseText (k : Clause) (body : Option String) {rest : List Char}
    (hrest : Ends rest) : Ends ((Select.clauseText k body).toList ++ rest) := by
  cases body with
  | none => exact hrest
  | some text =>
    have hblank : (Select.clauseText k (some text)).toList = ' ' :: (k.write text).toList :=
      String.toList_append
    rw [hblank, List.cons_append, ends_cons]
    decide

/-- A count yields nothing. -/
theorem yields_countText (n : UInt64) : Yields (Select.countText n) [] :=
  (quiet_repr n.toNat).yields

/-- A list of texts has what the empty text has, each of the texts, and two such texts with a comma
between them. -/
theorem list_property {P : String → Prop} (hempty : P "")
    (hcomma : ∀ {first rest : String}, P first → P rest → P (first ++ ", " ++ rest))
    {texts : List String} (h : ∀ text ∈ texts, P text) : P (", ".intercalate texts) := by
  induction texts with
  | nil => exact hempty
  | cons text rest ih =>
    cases rest with
    | nil =>
      rw [String.intercalate_singleton]
      exact h text List.mem_cons_self
    | cons next rest =>
      have hrest := ih fun other hother => h other (List.mem_cons_of_mem text hother)
      rw [String.intercalate_cons_cons]
      exact hcomma (h text List.mem_cons_self) hrest

/-- A list of texts without placeholders has none. -/
theorem scans_list {texts : List String} (h : ∀ text ∈ texts, Scans text []) :
    Scans (", ".intercalate texts) [] := by
  have hcomma : Quiet ", " := by decide
  apply list_property scans_empty _ h
  intro first rest hfirst hrest
  exact (hfirst.append hcomma.yields (ends_append (by decide))).append_scans hrest

/-- Two conditions that are joined have the placeholders of both. -/
theorem scans_join {op : Connective} {a b : Condition} {as bs : List String}
    (ha : Scans a.text as) (hb : Scans b.text bs) :
    Scans (Condition.join op a b).text (as ++ bs) := by
  have hopen : Quiet "(" := by decide
  have hclose : Quiet ")" := by decide
  have hbehind : Quiet ") " := by decide
  have hbefore : Quiet " (" := by decide
  have hop : Quiet op.sql := by cases op <;> decide
  have hfirst := (hopen.yields.append_scans ha).append hbehind.yields (ends_append (by decide))
  have hsecond := ((hfirst.append hop.yields).append hbefore.yields).append_scans hb
  have hboth := hsecond.append hclose.yields (ends_append (by decide))
  simp only [List.nil_append, List.append_nil] at hboth
  exact hboth.scans

/-! ## Selections -/

/-- The placeholders of each clause of a selection. -/
structure ClauseNames where
  columns : List String
  source : List String
  filter : List String
  grouping : List String
  ordering : List String

namespace ClauseNames

/-- The placeholders where the clauses stand in their usual order. -/
def usual (n : ClauseNames) : List String :=
  n.columns ++ n.source ++ n.filter ++ n.grouping ++ n.ordering

/-- The placeholders where the rows are numbered, which puts the ordering behind the columns. -/
def numbered (n : ClauseNames) : List String :=
  n.columns ++ n.ordering ++ n.source ++ n.filter ++ n.grouping

/-- The placeholders of a text whose window is taken in some way. -/
def inText (n : ClauseNames) : Paging → List String
  | .numbered _ _ => n.numbered
  | _ => n.usual

/-- Both orders have the same placeholders. -/
theorem mem_numbered (n : ClauseNames) (name : String) : name ∈ n.numbered ↔ name ∈ n.usual := by
  simp only [numbered, usual, List.mem_append, or_assoc, or_left_comm]
  rw [or_comm (a := name ∈ n.grouping)]

/-- Only the condition has placeholders. -/
def onlyFilter (names : List String) : ClauseNames := ⟨[], [], names, [], []⟩

/-- Where only the condition has placeholders its place does not matter. -/
theorem inText_onlyFilter (names : List String) (p : Paging) :
    (onlyFilter names).inText p = names := by
  cases p <;> simp [inText, usual, numbered, onlyFilter]

end ClauseNames

namespace Select

/-- The clauses of a selection have these placeholders. -/
structure Reads (s : Select) (n : ClauseNames) : Prop where
  columns : Scans s.columns n.columns
  source : Scans s.source n.source
  filter : Scans ((s.filter.map Condition.text).getD "") n.filter
  grouping : Scans (s.grouping.getD "") n.grouping
  ordering : Scans (s.ordering.getD "") n.ordering

variable {s : Select} {n : ClauseNames}

/-- Of the condition only its text stands in the text. -/
theorem text_of_filter (s : Select) {filter : Option Condition}
    (h : filter.map Condition.text = s.filter.map Condition.text) (p : Paging) :
    text { s with filter } p = s.text p := by
  obtain ⟨columns, source, earlier, grouping, ordering, skip, take⟩ := s
  cases filter with
  | none =>
    cases earlier with
    | none => rfl
    | some _ => cases h
  | some c =>
    cases earlier with
    | none => cases h
    | some c' =>
      obtain ⟨condition, values⟩ := c
      obtain ⟨_, values'⟩ := c'
      cases h
      cases p <;> rfl

/-- The number of rows in front of the columns does not matter. -/
theorem yields_top (top : Option UInt64) :
    Yields (match top with
      | some n => "TOP " ++ countText n ++ " "
      | none => "") [] := by
  cases top with
  | none => exact yields_empty
  | some n =>
    have htop : Quiet "TOP " := by decide
    have hblank : Quiet " " := by decide
    exact (htop.yields.append (yields_countText n)).append hblank.yields

/-- The columns and the source have their placeholders in this order. -/
theorem Reads.scans_head (h : s.Reads n) (top : Option UInt64) :
    Scans (s.headText top) (n.columns ++ n.source) := by
  have hblank : Quiet " " := by decide
  have hcolumns := ((yields_top top).append_scans h.columns).append hblank.yields
    (ends_append (by decide))
  have hsource := (hcolumns.append_scans (h.source.write .source)).write .columns
  rwa [List.nil_append, List.append_nil] at hsource

/-- The condition and the grouping have their placeholders in this order. -/
theorem Reads.scans_filter (h : s.Reads n) : Scans s.filterText (n.filter ++ n.grouping) :=
  (scans_clauseText .filter h.filter).append_scans (scans_clauseText .grouping h.grouping)
    fun _ hrest => ends_clauseText _ _ hrest

/-- A text in front of the condition and the grouping. -/
theorem Reads.scans_append_filter (h : s.Reads n) {before : String} {names : List String}
    (hbefore : Scans before names) :
    Scans (before ++ s.filterText) (names ++ n.filter ++ n.grouping) := by
  have hends : ∀ rest, Ends rest → Ends (s.filterText.toList ++ rest) := by
    intro rest hrest
    rw [filterText, String.toList_append, List.append_assoc]
    exact ends_clauseText _ _ (ends_clauseText _ _ hrest)
  have hboth := hbefore.append_scans h.scans_filter hends
  rwa [← List.append_assoc] at hboth

/-- The clauses in their usual order have all placeholders in this order. -/
theorem Reads.scans_clauses (h : s.Reads n) (top : Option UInt64) :
    Scans (s.headText top ++ s.filterText ++ s.orderText) n.usual :=
  (h.scans_append_filter (h.scans_head top)).append_scans (scans_clauseText .ordering h.ordering)
    fun _ hrest => ends_clauseText _ _ hrest

/-- The rows with their numbers have the placeholders of the ordering behind those of the
columns. -/
theorem Reads.yields_numbered (h : s.Reads n) : Yields s.numberedText n.numbered := by
  have hopen : Quiet "WITH Results_CTE AS (" := by decide
  have hnumber : Quiet ", ROW_NUMBER() OVER (" := by decide
  have has : Quiet ") AS " := by decide
  have hname : Quiet numberColumn := by decide
  have hblank : Quiet " " := by decide
  have hclose : Quiet ") " := by decide
  have hcolumns := (h.columns.append hnumber.yields (ends_append (by decide))).append_scans
    (h.ordering.write .ordering)
  have hnamed := ((hcolumns.append has.yields (ends_append (by decide))).append
    hname.yields).append hblank.yields
  have hrows := (hnamed.append_scans (h.source.write .source)).write .columns
  have htable := (h.scans_append_filter (hopen.yields.append_scans hrows)).append hclose.yields
    (ends_append (by decide))
  simp only [List.nil_append, List.append_nil] at htable
  exact htable

/-- However the window is taken, the text of a selection has the placeholders of its clauses. -/
theorem Reads.scans_text (h : s.Reads n) (p : Paging) : Scans (s.text p) (n.inText p) := by
  cases p with
  | first count => exact h.scans_clauses count
  | window count _ => exact h.scans_clauses count
  | numbered past upTo =>
    have hall : Quiet "* " := by decide
    have htable : Quiet "Results_CTE " := by decide
    have hpast : Quiet (numberColumn ++ " > ") := by decide
    have hfilter := (hpast.yields.append (yields_countText past)).write .filter
    have hrows := (hall.yields.append ((htable.yields.append hfilter).write .source)).write .columns
    have hpart := h.yields_numbered.append hrows
    simp only [List.append_nil] at hpart
    cases upTo with
    | none =>
      have htext := hpart.append yields_empty
      rw [List.append_nil] at htext
      exact htext.scans
    | some last =>
      have hand : Quiet (" AND " ++ numberColumn ++ " <= ") := by decide
      have htext := hpart.append (hand.yields.append (yields_countText last))
      simp only [List.append_nil] at htext
      exact htext.scans
  | offset skip take =>
    have hoffset : Quiet " OFFSET " := by decide
    have hrows : Quiet " ROWS" := by decide
    have hclauses := (h.scans_clauses none).append hoffset.yields (ends_append (by decide))
    have hpart := (hclauses.append (yields_countText skip)).append hrows.yields
    simp only [List.append_nil] at hpart
    cases take with
    | none =>
      have htext := hpart.append yields_empty
      rw [List.append_nil] at htext
      exact htext.scans
    | some n =>
      have hfetch : Quiet " FETCH NEXT " := by decide
      have honly : Quiet " ROWS ONLY" := by decide
      have htext := hpart.append
        ((hfetch.yields.append (yields_countText n)).append honly.yields)
      simp only [List.append_nil] at htext
      exact htext.scans

end Select

end RowQuery.Sql
