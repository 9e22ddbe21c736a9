import RowQuery.Proofs.Sql.BalancedText
import RowQuery.Proofs.Sql.PagedRows
import RowQuery.Proofs.Sql.SelectText

/-!
# The named query in a text

Where the rows are numbered, the selection stands in a named query in front of the statement.  This
module finds out where a text opens such a query.

A watch over the characters looks for an S, a blank and an opening parenthesis behind each other.
They stand at the end of the opening, and nowhere in the texts that a statement is put together
from.  Most of these can be put behind one another in any order, as they neither start nor leave off
within the three characters.

Main results:

- Definition {lit}`Steady`: a text that can be put next to others without opening a named query.
- Theorem {lit}`Steady.not_contains`: no named query is opened in a steady text.
- Theorem {lit}`eq_empty_of_opening`: in front of a steady text, a named query is opened only once.
- Theorem {lit}`Term.steady_text`: the text of a term is steady.
- Theorems {lit}`Select.SteadyParts.steady_text` and {lit}`Select.SteadyParts.text_numbered`: the
  text of a selection is steady, behind the opening if its rows are numbered.
-/

namespace RowQuery.Sql

/-- What opens the named query. -/
def opening : String := "WITH Results_CTE AS ("

/-! ## Watching a text -/

/-- Watches a text for an S, a blank and an opening parenthesis.  The state is how many of them
stand right in front. -/
def watch (state : Nat) : List Char → Option Nat
  | [] => some state
  | c :: rest =>
    if state = 2 ∧ c = '(' then none
    else watch (if c = 'S' then 1 else if state = 1 ∧ c = ' ' then 2 else 0) rest

/-- Nothing is found in the text, and the watch is not in front of the parenthesis behind it, if it
was not in front of it before. -/
def Steady (text : String) : Prop :=
  ∀ state ∈ [0, 1], ∃ state' ∈ [0, 1], watch state text.toList = some state'

instance (text : String) : Decidable (Steady text) :=
  inferInstanceAs (Decidable (∀ state ∈ [0, 1], ∃ state' ∈ [0, 1], _ = some state'))

/-- Away from the parenthesis, the watch goes on behind any character. -/
theorem watch_cons {state : Nat} (hstate : state ∈ [0, 1]) (c : Char) (rest : List Char) :
    watch state (c :: rest) =
      watch (if c = 'S' then 1 else if state = 1 ∧ c = ' ' then 2 else 0) rest := by
  rw [watch, if_neg]
  rintro ⟨rfl, -⟩
  simp at hstate

/-- The watch goes on from one text to the next. -/
theorem watch_append (state : Nat) (a b : List Char) :
    watch state (a ++ b) = (watch state a).bind (watch · b) := by
  induction a generalizing state with
  | nil => rfl
  | cons c a ih =>
    rw [List.cons_append, watch, watch]
    split
    · rfl
    · exact ih _

/-- Steady texts behind one another. -/
theorem Steady.append {a b : String} (ha : Steady a) (hb : Steady b) : Steady (a ++ b) := by
  intro state hstate
  obtain ⟨middle, hmiddle, hwatch⟩ := ha state hstate
  rw [String.toList_append, watch_append, hwatch]
  exact hb middle hmiddle

/-- A text without blanks is steady. -/
theorem steady_of_notMem {text : String} (h : ' ' ∉ text.toList) : Steady text := by
  intro state hstate
  generalize text.toList = cs at h
  induction cs generalizing state with
  | nil => exact ⟨state, hstate, rfl⟩
  | cons c cs ih =>
    rw [List.mem_cons, not_or] at h
    have hblank : ¬ (state = 1 ∧ c = ' ') := fun hc => h.1 hc.2.symm
    rw [watch_cons hstate, if_neg hblank]
    split
    · exact ih 1 (by simp) h.2
    · exact ih 0 (by simp) h.2

/-- The watch does not get past the opening of a named query. -/
theorem watch_opening (state : Nat) (rest : List Char) :
    watch state (opening.toList ++ rest) = none := by
  have hopening : opening.toList = 'W' :: ("ITH Results_CTE AS (" : String).toList := rfl
  have hrest : watch 0 ("ITH Results_CTE AS (" : String).toList = none := by decide
  rw [hopening, List.cons_append, watch, if_neg (by simp), if_neg (by decide), if_neg (by simp),
    watch_append, hrest]
  rfl

/-- No named query is opened in a steady text. -/
theorem Steady.not_contains {text : String} (h : Steady text) : ¬ Contains opening text := by
  rintro ⟨before, after, rfl⟩
  obtain ⟨state, -, hwatch⟩ := h 0 (by simp)
  rw [String.toList_append, String.toList_append, List.append_assoc, watch_append] at hwatch
  cases hbefore : watch 0 before.toList with
  | none =>
    rw [hbefore] at hwatch
    cases hwatch
  | some middle =>
    rw [hbefore, Option.bind_some, watch_opening] at hwatch
    cases hwatch

/-- In front of a steady text, a named query is opened only once. -/
theorem eq_empty_of_opening {rest before after : String} (hrest : Steady rest)
    (h : opening ++ rest = before ++ opening ++ after) : before = "" := by
  have hlist : opening.toList ++ rest.toList =
      before.toList ++ (opening.toList ++ after.toList) := by
    rw [← String.toList_append, h, String.toList_append, String.toList_append, List.append_assoc]
  have hnone (more : List Char) : rest.toList ≠ more ++ (opening.toList ++ after.toList) := by
    intro hmore
    apply hrest.not_contains
    refine ⟨String.ofList more, after, ?_⟩
    rw [← String.toList_inj, String.toList_append, String.toList_append, String.toList_ofList,
      List.append_assoc]
    exact hmore
  rcases List.append_eq_append_iff.1 hlist with ⟨more, -, hmore⟩ | ⟨more, hopening, hmore⟩
  · exact absurd hmore (hnone more)
  · cases more with
    | nil => exact absurd hmore.symm (hnone [])
    | cons first more =>
      -- an opening that starts inside of the first one starts with its first letter
      have hfirst : first = 'W' := (List.cons.inj hmore).1.symm
      cases hbefore : before.toList with
      | nil => simpa using hbefore
      | cons c cs =>
        rw [hbefore, hfirst] at hopening
        have htail : opening.toList.tail = cs ++ 'W' :: more := by rw [hopening]; rfl
        have habsent : 'W' ∉ opening.toList.tail := by decide
        rw [htail] at habsent
        simp at habsent

/-! ## Terms -/

/-- An identifier is steady. -/
theorem steady_of_isIdentifier {name : String} (h : isIdentifier name = true) : Steady name :=
  steady_of_notMem (notMem_of_isIdentifier h (by decide))

/-- A natural number is steady. -/
theorem steady_repr (n : Nat) : Steady n.repr :=
  steady_of_notMem (notMem_repr n (by decide))

/-- An integer is steady. -/
theorem steady_integerText (n : Int) : Steady (Number.integerText n) := by
  unfold Number.integerText
  split
  · exact (show Steady "-" by decide).append (steady_repr n.natAbs)
  · exact steady_repr n.natAbs

/-- Behind characters that are neither an S nor a blank, nothing of what is watched for stands. -/
theorem watch_eq_zero {text : List Char} (hne : text ≠ []) (hletter : 'S' ∉ text)
    (hblank : ' ' ∉ text) {state : Nat} (hstate : state ∈ [0, 1]) : watch state text = some 0 := by
  induction text generalizing state with
  | nil => exact absurd rfl hne
  | cons c cs ih =>
    rw [List.mem_cons, not_or] at hletter hblank
    have hblank' : ¬ (state = 1 ∧ c = ' ') := fun hc => hblank.1 hc.2.symm
    rw [watch_cons hstate, if_neg (Ne.symm hletter.1), if_neg hblank']
    cases cs with
    | nil => rfl
    | cons c' cs => exact ih (by simp) hletter.2 hblank.2 (by simp)

/-- A natural number and the blank behind it are steady. -/
theorem steady_repr_blank (n : Nat) : Steady (n.repr ++ " ") := by
  intro state hstate
  have hdigits : watch state n.repr.toList = some 0 :=
    watch_eq_zero (by simp) (notMem_repr n (by decide)) (notMem_repr n (by decide)) hstate
  refine ⟨0, by simp, ?_⟩
  rw [String.toList_append, watch_append, hdigits]
  rfl

/-- A text between two steady ones. -/
theorem Steady.enclosed {before text after : String} (h : Steady text) (hbefore : Steady before)
    (hafter : Steady after) : Steady (before ++ text ++ after) :=
  (hbefore.append h).append hafter

/-- The text of a term is steady if the names of its columns are. -/
theorem Term.steady_text {t : Term} (h : ∀ c ∈ t.columns, Steady c) : Steady t.text := by
  have hopen : Steady "(" := by decide
  have hclose : Steady ")" := by decide
  have hcomma : Steady ", " := by decide
  induction t with
  | null => exact (show Steady "NULL" by decide)
  | parameter index => exact (show Steady "@" by decide).append (steady_repr index)
  | integer n => exact steady_integerText n
  | column name => exact h name List.mem_cons_self
  | operation op left right ihleft ihright =>
    simp only [columns, List.mem_append] at h
    have hop : Steady (" " ++ op.sql ++ " ") := by
      rcases op with (_ | _ | _ | _ | _ | _) | (_ | _) | (_ | _ | _ | _ | _) <;> decide
    have hboth := (((hopen.append (ihleft fun c hc => h c (.inl hc))).append hop).append
      (ihright fun c hc => h c (.inr hc))).append hclose
    show Steady ("(" ++ left.text ++ " " ++ op.sql ++ " " ++ right.text ++ ")")
    simpa only [String.append_assoc] using hboth
  | nullTest negated t ih =>
    cases negated with
    | false => exact (ih h).enclosed hopen (show Steady " IS NULL)" by decide)
    | true => exact (ih h).enclosed hopen (show Steady " IS NOT NULL)" by decide)
  | isTrue t ih => exact (ih h).enclosed hopen (show Steady " = 1)" by decide)
  | negation t ih => exact (show Steady "NOT " by decide).append (ih h)
  | nullOrEmpty t ih =>
    have hfirst := (ih h).enclosed hopen (show Steady " IS NULL OR " by decide)
    exact (ih h).enclosed hfirst (show Steady " = '')" by decide)
  | like t before pattern after iht ihpattern =>
    simp only [columns, List.mem_append] at h
    have ht := (iht fun c hc => h c (.inl hc)).enclosed hopen (show Steady " LIKE " by decide)
    have hbefore : Steady (if before then "'%' + " else "") := by
      cases before <;> decide
    have hafter : Steady (if after then " + '%')" else ")") := by
      cases after <;> decide
    exact (ihpattern fun c hc => h c (.inr hc)).enclosed (ht.append hbefore) hafter
  | upper t ih => exact (ih h).enclosed (show Steady "UPPER(" by decide) hclose
  | lower t ih => exact (ih h).enclosed (show Steady "LOWER(" by decide) hclose
  | trimmed t ih =>
    exact (ih h).enclosed (show Steady "RTRIM(LTRIM(" by decide) (show Steady "))" by decide)
  | replaced t pattern new iht ihpattern ihnew =>
    simp only [columns, List.mem_append] at h
    have ht := (iht fun c hc => h c (.inl (.inl hc))).enclosed (show Steady "REPLACE(" by decide)
      hcomma
    have hpattern := (ihpattern fun c hc => h c (.inl (.inr hc))).enclosed ht hcomma
    exact (ihnew fun c hc => h c (.inr hc)).enclosed hpattern hclose
  | piece t start length iht ihstart ihlength =>
    simp only [columns, List.mem_append] at h
    have ht := (iht fun c hc => h c (.inl (.inl hc))).enclosed (show Steady "SUBSTRING(" by decide)
      hcomma
    have hstart := (ihstart fun c hc => h c (.inl (.inr hc))).enclosed ht
      (show Steady " + 1, " by decide)
    exact (ihlength fun c hc => h c (.inr hc)).enclosed hstart hclose

/-! ## Clauses -/

/-- Two steady conditions are joined to a steady one. -/
theorem steady_join {a b : Condition} (ha : Steady a.text) (hb : Steady b.text)
    (op : Connective) : Steady (Condition.join op a b).text := by
  have hmiddle : Steady (") " ++ op.sql ++ " (") := by cases op <;> decide
  have hboth := (hb.enclosed (ha.enclosed (show Steady "(" by decide) hmiddle)
    (show Steady ")" by decide))
  simpa only [Condition.join, String.append_assoc] using hboth

/-- Steady texts with commas between them. -/
theorem steady_intercalate {texts : List String} (h : ∀ text ∈ texts, Steady text) :
    Steady (", ".intercalate texts) := by
  apply list_property (by decide) _ h
  intro first rest hfirst hrest
  exact (hfirst.append (show Steady ", " by decide)).append hrest

/-- A keyword is steady in front of a steady text. -/
theorem Steady.write {body : String} (h : Steady body) (k : Clause) : Steady (k.write body) := by
  have hkeyword : Steady (k.keyword ++ " ") := by cases k <;> decide
  exact hkeyword.append h

/-- A clause behind a blank is steady if its body is. -/
theorem Steady.blank_write {body : String} (h : Steady body) (k : Clause) :
    Steady (" " ++ k.write body) := by
  have hkeyword : Steady (" " ++ (k.keyword ++ " ")) := by cases k <;> decide
  rw [Clause.write, ← String.append_assoc]
  exact hkeyword.append h

/-- A clause that may be missing is steady if its body is. -/
theorem steady_clauseText (k : Clause) {body : Option String} (h : ∀ text ∈ body, Steady text) :
    Steady (Select.clauseText k body) := by
  cases body with
  | none => exact (show Steady "" by decide)
  | some text => exact (h text rfl).blank_write k

namespace Select

/-- The clauses of a selection are steady. -/
structure SteadyParts (s : Select) : Prop where
  columns : Steady s.columns
  source : Steady s.source
  filter : ∀ c ∈ s.filter, Steady c.text
  grouping : ∀ text ∈ s.grouping, Steady text
  ordering : ∀ text ∈ s.ordering, Steady text

/-- The text of a selection starts with its columns unless its rows are numbered. -/
theorem exists_text_eq (s : Select) {p : Paging} (hp : ∀ past upTo, p ≠ .numbered past upTo) :
    ∃ rest, s.text p = "SELECT " ++ rest := by
  have hhead (top : Option UInt64) : ∃ rest, s.headText top = "SELECT " ++ rest := ⟨_, rfl⟩
  cases p with
  | numbered past upTo => exact absurd rfl (hp past upTo)
  | first count | window count _ =>
    obtain ⟨rest, hrest⟩ := hhead count
    refine ⟨rest ++ s.filterText ++ s.orderText, ?_⟩
    simp only [text, hrest, String.append_assoc]
  | offset skip take =>
    obtain ⟨rest, hrest⟩ := hhead none
    simp only [text, hrest, String.append_assoc]
    exact ⟨_, rfl⟩

namespace SteadyParts

variable {s : Select}

/-- The columns and the source are steady behind the number of rows. -/
theorem steady_head (h : s.SteadyParts) (top : Option UInt64) : Steady (s.headText top) := by
  have hsource := h.source.blank_write .source
  have hhead (count : String) (hcount : Steady count) :
      Steady (Clause.columns.write (count ++ s.columns) ++ (" " ++ Clause.source.write s.source)) :=
    ((hcount.append h.columns).write .columns).append hsource
  simp only [Clause.write, String.append_assoc] at hhead
  cases top with
  | none => simpa only [headText, Clause.write, String.append_assoc] using hhead "" (by decide)
  | some n =>
    have hcount : Steady ("TOP " ++ (countText n ++ " ")) :=
      (show Steady "TOP " by decide).append (steady_repr_blank n.toNat)
    simpa only [headText, Clause.write, String.append_assoc] using hhead _ hcount

/-- The condition and the grouping are steady. -/
theorem steady_filter (h : s.SteadyParts) : Steady s.filterText := by
  apply Steady.append
  · apply steady_clauseText
    intro text htext
    obtain ⟨c, hc, rfl⟩ := Option.map_eq_some_iff.1 htext
    exact h.filter c hc
  · exact steady_clauseText .grouping h.grouping

/-- The clauses in their usual order are steady. -/
theorem steady_clauses (h : s.SteadyParts) (top : Option UInt64) :
    Steady (s.headText top ++ s.filterText ++ s.orderText) :=
  ((h.steady_head top).append h.steady_filter).append (steady_clauseText .ordering h.ordering)

/-- The text of a selection is steady unless its rows are numbered. -/
theorem steady_text (h : s.SteadyParts) {p : Paging}
    (hp : ∀ past upTo, p ≠ .numbered past upTo) : Steady (s.text p) := by
  cases p with
  | first count => exact h.steady_clauses count
  | window count _ => exact h.steady_clauses count
  | numbered past upTo => exact absurd rfl (hp past upTo)
  | offset skip take =>
    have hskip := ((h.steady_clauses none).append (show Steady " OFFSET " by decide)).append
      (steady_repr skip.toNat)
    have hrows := hskip.append (show Steady " ROWS" by decide)
    cases take with
    | none => exact hrows.append (show Steady "" by decide)
    | some n =>
      exact hrows.append ((steady_repr n.toNat).enclosed (show Steady " FETCH NEXT " by decide)
        (show Steady " ROWS ONLY" by decide))

/-- Where the rows are numbered, the text of a selection opens the named query, which selects the
columns, and is steady behind that. -/
theorem text_numbered (h : s.SteadyParts) (past : UInt64) (upTo : Option UInt64) :
    ∃ rest, s.text (.numbered past upTo) =
        opening ++ ("SELECT " ++ s.columns ++ ", ROW_NUMBER() OVER (" ++ rest) ∧
      Steady ("SELECT " ++ s.columns ++ ", ROW_NUMBER() OVER (" ++ rest) := by
  have hordering : Steady (Clause.ordering.write (s.ordering.getD "")) := by
    cases hordering : s.ordering with
    | none => decide
    | some text => exact (h.ordering text hordering).write .ordering
  have hnumbers := (hordering.append (show Steady (") AS " ++ numberColumn) by decide)).append
    (h.source.blank_write .source)
  have hrows := (hnumbers.append h.steady_filter).append (show Steady ") " by decide)
  have hpast : Steady (numberColumn ++ " > " ++ countText past) :=
    (show Steady (numberColumn ++ " > ") by decide).append (steady_repr past.toNat)
  have htable := (show Steady "Results_CTE " by decide).append (hpast.write .filter)
  have hselected := ((show Steady "* " by decide).append (htable.write .source)).write .columns
  have hcolumns := h.columns.enclosed (show Steady "SELECT " by decide)
    (show Steady ", ROW_NUMBER() OVER (" by decide)
  have hbounded (bound : String) (hbound : Steady bound) :
      ∃ rest, s.numberedText ++ Clause.columns.write ("* " ++ Clause.source.write
            ("Results_CTE " ++ Clause.filter.write (numberColumn ++ " > " ++ countText past))) ++
          bound = opening ++ ("SELECT " ++ s.columns ++ ", ROW_NUMBER() OVER (" ++ rest) ∧
        Steady ("SELECT " ++ s.columns ++ ", ROW_NUMBER() OVER (" ++ rest) := by
    refine ⟨_, ?_, hcolumns.append ((hrows.append hselected).append hbound)⟩
    show opening ++ ("SELECT " ++ (s.columns ++ ", ROW_NUMBER() OVER (" ++
      Clause.ordering.write (s.ordering.getD "") ++ ") AS " ++ numberColumn ++ " " ++
      Clause.source.write s.source)) ++ s.filterText ++ ") " ++ _ ++ _ = _
    simp only [String.append_assoc]
  cases upTo with
  | none => exact hbounded "" (by decide)
  | some last =>
    exact hbounded _ ((show Steady (" AND " ++ numberColumn ++ " <= ") by decide).append
      (steady_repr last.toNat))

end SteadyParts

end Select

end RowQuery.Sql
