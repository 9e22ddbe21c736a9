import RowQuery.Proofs.Sql.DrawnValues
import RowQuery.Proofs.Sql.PagedRows
import RowQuery.Proofs.Sql.SelectText

/-!
# Binding in every dialect

A condition hands out its values in the order in which the statement first names its
placeholders.  Where the rows are numbered the ordering stands in front of the condition, and
everywhere else behind it, so a placeholder that both of them name may come in earlier there.
This module says exactly for which selections the dialects agree on the value of every
placeholder.

Main results:

- Definition {lit}`Select.DialectFree`: in all dialects every placeholder gets the same value.
- Theorem {lit}`Select.placeholders_text`: two orders of the placeholders are all there are.
- Theorem {lit}`Select.dialectFree_iff`: the dialects agree exactly if these two have the same
  names, and first bring in those of the condition in the same order.
- Theorem {lit}`Select.dialectFree_of_ordering`: they do so if all clauses close their quotes and
  the ordering names no placeholder of the condition.
-/

namespace RowQuery.Sql

open Outcome

/-! ## Names in two orders -/

/-- Two texts name the same placeholders, and first name those of a condition in the same
order. -/
structure SameOrder (owned names others : List String) : Prop where
  mem : ∀ name, name ∈ names ↔ name ∈ others
  order : (names.filter (owned.contains ·)).eraseDups =
    (others.filter (owned.contains ·)).eraseDups

/-- Every text names its placeholders in its order. -/
theorem SameOrder.refl (owned names : List String) : SameOrder owned names names :=
  ⟨fun _ => Iff.rfl, rfl⟩

/-- Whichever text comes first does not matter. -/
theorem SameOrder.symm {owned names others : List String} (h : SameOrder owned names others) :
    SameOrder owned others names :=
  ⟨fun name => (h.mem name).symm, h.order.symm⟩

/-- What holds of a text and a second one, and of this and a third one, holds of the first and the
third. -/
theorem SameOrder.trans {owned names others more : List String}
    (h : SameOrder owned names others) (h' : SameOrder owned others more) :
    SameOrder owned names more :=
  ⟨fun name => (h.mem name).trans (h'.mem name), h.order.trans h'.order⟩

/-- Distinct values tell places apart: names that get the same values from two lists of distinct
names stand at the same places there. -/
theorem eq_of_idxOf {names others : List String} (hnames : names.Nodup) (hothers : others.Nodup)
    (hmem : ∀ name, name ∈ names ↔ name ∈ others)
    (h : ∀ name ∈ names, (names.map Value.text).getD (names.idxOf name) .null =
      (names.map Value.text).getD (others.idxOf name) .null) :
    names = others := by
  have hlength : names.length = others.length :=
    ((List.perm_ext_iff_of_nodup hnames hothers).2 hmem).length_eq
  refine List.ext_getElem hlength fun i hi hi' => ?_
  have hname : others[i] ∈ names := (hmem _).2 (List.getElem_mem hi')
  have hplace : names.idxOf others[i] < names.length := List.idxOf_lt_length_of_mem hname
  have hvalue := h others[i] hname
  rw [hothers.idxOf_getElem i hi'] at hvalue
  simp only [List.getD_eq_getElem?_getD, List.getElem?_map, List.getElem?_eq_getElem hplace,
    List.getElem?_eq_getElem hi, Option.map_some, Option.getD_some, List.getElem_idxOf] at hvalue
  exact (Value.text.inj hvalue).symm

/-- Two texts without at signs have none together. -/
theorem notMem_toList_append {a b : String} (ha : '@' ∉ a.toList) (hb : '@' ∉ b.toList) :
    '@' ∉ (a ++ b).toList := by
  rw [String.toList_append, List.mem_append]
  exact fun h => h.elim ha hb

/-- A clause has no at signs if its body has none. -/
theorem notMem_toList_write (k : Clause) {body : String} (h : '@' ∉ body.toList) :
    '@' ∉ (k.write body).toList := by
  have hkeyword : '@' ∉ (k.keyword ++ " ").toList := by cases k <;> decide
  exact notMem_toList_append hkeyword h

namespace Select

variable {s : Select}

/-! ## The placeholders of a text -/

/-- The placeholders where the clauses stand in their usual order. -/
def usualNames (s : Select) : List String := placeholders (s.text (.first none))

/-- The placeholders where the rows are numbered. -/
def numberedNames (s : Select) : List String := placeholders s.numberedText

/-- The placeholders where the window is taken in some way. -/
def names (s : Select) : Paging → List String
  | .numbered _ _ => s.numberedNames
  | _ => s.usualNames

/-- The number of rows in front of the columns has no placeholders. -/
theorem placeholders_headText (s : Select) (top : Option UInt64) (behind : String) :
    placeholders (s.headText top ++ behind) =
      placeholders (s.columns ++ " " ++ Clause.source.write s.source ++ behind) := by
  have hfront := (yields_keyword .columns).append (yields_top top)
  rw [← hfront.placeholders_append (s.columns ++ " " ++ Clause.source.write s.source ++ behind)]
  cases top <;> simp only [headText, Clause.write, String.append_assoc]

/-- What stands behind the numbered rows has no placeholders. -/
theorem placeholders_numberedText (s : Select) {behind : String} (hat : '@' ∉ behind.toList) :
    placeholders (s.numberedText ++ behind) = s.numberedNames := by
  have hclose : '@' ∉ ") ".toList := by decide
  have hends (rest : List Char) : Ends (") ".toList ++ rest) := ends_append (by decide) rest
  obtain ⟨rows, hrows⟩ : ∃ rows, s.numberedText = rows ++ ") " := ⟨_, rfl⟩
  have hboth : Ends (") " ++ behind).toList := by
    rw [String.toList_append]
    exact hends behind.toList
  have halone : Ends ") ".toList := by simpa using hends []
  rw [numberedNames, hrows, String.append_assoc,
    placeholders_append_of_notMem rows (notMem_toList_append hclose hat) hboth,
    placeholders_append_of_notMem rows hclose halone]

/-- Behind the numbered rows stands a text without at signs. -/
theorem text_numbered (s : Select) (past : UInt64) (upTo : Option UInt64) :
    ∃ behind : String, '@' ∉ behind.toList ∧
      s.text (.numbered past upTo) = s.numberedText ++ behind := by
  have hcount (count : UInt64) : '@' ∉ (countText count).toList := (quiet_repr count.toNat).1
  have hpast : '@' ∉ (numberColumn ++ " > " ++ countText past).toList :=
    notMem_toList_append (by decide) (hcount past)
  have hfilter : '@' ∉ ("Results_CTE " ++
      Clause.filter.write (numberColumn ++ " > " ++ countText past)).toList :=
    notMem_toList_append (by decide) (notMem_toList_write .filter hpast)
  have hrows : '@' ∉ ("* " ++ Clause.source.write ("Results_CTE " ++
      Clause.filter.write (numberColumn ++ " > " ++ countText past))).toList :=
    notMem_toList_append (by decide) (notMem_toList_write .source hfilter)
  cases upTo with
  | none =>
    have hbehind := notMem_toList_append (notMem_toList_write .columns hrows)
      (show '@' ∉ "".toList by decide)
    exact ⟨_, hbehind, String.append_assoc ..⟩
  | some last =>
    have hlast : '@' ∉ (" AND " ++ numberColumn ++ " <= " ++ countText last).toList :=
      notMem_toList_append (by decide) (hcount last)
    have hbehind := notMem_toList_append (notMem_toList_write .columns hrows) hlast
    exact ⟨_, hbehind, String.append_assoc ..⟩

/-- Behind the clauses in their usual order stands a text without at signs, in front of which
every placeholder ends. -/
theorem text_offset (s : Select) (skip : UInt64) (take : Option UInt64) :
    ∃ behind : String, '@' ∉ behind.toList ∧ Ends behind.toList ∧
      s.text (.offset skip take) = s.text (.first none) ++ behind := by
  have hcount (count : UInt64) : '@' ∉ (countText count).toList := (quiet_repr count.toNat).1
  have hskip : '@' ∉ (" OFFSET " ++ (countText skip ++ " ROWS")).toList :=
    notMem_toList_append (by decide) (notMem_toList_append (hcount skip) (by decide))
  have hends (rest : String) : Ends (" OFFSET " ++ rest).toList := by
    rw [String.toList_append]
    exact ends_append (by decide) rest.toList
  cases take with
  | none =>
    refine ⟨" OFFSET " ++ (countText skip ++ " ROWS"), hskip, hends _, ?_⟩
    simp only [text, String.append_assoc, String.append_empty]
  | some n =>
    have hfetch : '@' ∉ (" FETCH NEXT " ++ (countText n ++ " ROWS ONLY")).toList :=
      notMem_toList_append (by decide) (notMem_toList_append (hcount n) (by decide))
    refine ⟨_, notMem_toList_append hskip hfetch, ?_, ?_⟩
    · rw [String.append_assoc]
      exact hends _
    · simp only [text, String.append_assoc]

/-- However the window is taken, the placeholders of the text are those of the clauses in their
usual order or those of the numbered rows. -/
theorem placeholders_text (s : Select) (p : Paging) : placeholders (s.text p) = s.names p := by
  have husual (top : Option UInt64) :
      placeholders (s.headText top ++ s.filterText ++ s.orderText) = s.usualNames := by
    change _ = placeholders (s.headText none ++ s.filterText ++ s.orderText)
    rw [String.append_assoc, String.append_assoc, placeholders_headText, placeholders_headText]
  cases p with
  | first count => exact husual count
  | window count limiter => exact husual count
  | numbered past upTo =>
    obtain ⟨behind, hat, htext⟩ := s.text_numbered past upTo
    rw [htext, placeholders_numberedText s hat, names]
  | offset skip take =>
    obtain ⟨behind, hat, hends, htext⟩ := s.text_offset skip take
    rw [htext, placeholders_append_of_notMem _ hat hends]
    rfl

/-! ## The value of a placeholder -/

/-- The placeholders of the condition. -/
def owned (s : Select) : List String := (s.filter.map fun c => placeholders c.text).getD []

/-- The values of the condition. -/
def given (s : Select) : List Value := (s.filter.map Condition.values).getD []

/-- What a placeholder gets in a text with these placeholders. -/
def bound (s : Select) (names : List String) (name : String) : Option Value :=
  if name ∈ names then
    some <|
      if s.owned.contains name then
        s.given.getD ((names.filter (s.owned.contains ·)).eraseDups.idxOf name) .null
      else .null
  else none

/-- Every placeholder of a statement gets the value of the condition at the place that it has
among the placeholders of the condition. -/
theorem get?_bind_statement {d : Dialect} {st : Statement} (h : s.statement d = .ok st)
    (name : String) :
    ∃ p, s.paging d = .ok p ∧ (st.bind Command.empty).get? name = s.bound (s.names p) name := by
  obtain ⟨p, hp, hst⟩ := bind_eq_ok.1 h
  cases hst
  refine ⟨p, hp, ?_⟩
  rw [get?_bind, placeholders_text, bound]
  congr 2
  rw [owned, given]
  cases s.filter with
  | none => rfl
  | some c =>
    rw [← filter_eraseDups]
    exact drawn_single c.source.queue _ name

/-- Texts that name the placeholders of the condition in the same order give them the same
values. -/
theorem bound_congr {names others : List String} (h : SameOrder s.owned names others) :
    s.bound names = s.bound others := by
  funext name
  simp only [bound, h.mem, h.order]

/-! ## All dialects -/

/-- The selection with other values for its condition. -/
def withValues (s : Select) (values : List Value) : Select :=
  { s with filter := s.filter.map fun c => { c with values } }

/-- Whatever the values of the condition, every placeholder gets the same value in all dialects
that have a statement. -/
def DialectFree (s : Select) : Prop :=
  ∀ values d₁ d₂ st₁ st₂, (s.withValues values).statement d₁ = .ok st₁ →
    (s.withValues values).statement d₂ = .ok st₂ →
    ∀ name, (st₁.bind Command.empty).get? name = (st₂.bind Command.empty).get? name

/-- The values of the condition do not matter for the text. -/
theorem text_withValues (s : Select) (values : List Value) (p : Paging) :
    (s.withValues values).text p = s.text p :=
  s.text_of_filter (by rw [Option.map_map]; rfl) p

/-- The values of the condition do not matter for the placeholders. -/
theorem names_withValues (s : Select) (values : List Value) (p : Paging) :
    (s.withValues values).names p = s.names p := by
  rw [← placeholders_text, ← placeholders_text, text_withValues]

/-- The values of the condition do not matter for its placeholders. -/
theorem owned_withValues (s : Select) (values : List Value) :
    (s.withValues values).owned = s.owned := by
  simp only [owned, withValues, Option.map_map]
  rfl

/-- What a placeholder gets when the condition has certain values. -/
theorem get?_bind_withValues {d : Dialect} {values : List Value} {st : Statement}
    (h : (s.withValues values).statement d = .ok st) (name : String) :
    ∃ p, s.paging d = .ok p ∧
      (st.bind Command.empty).get? name = (s.withValues values).bound (s.names p) name := by
  obtain ⟨p, hp, hget⟩ := get?_bind_statement h name
  rw [names_withValues] at hget
  exact ⟨p, hp, hget⟩

/-- Only one dialect numbers the rows, and another one has the clauses in their usual order
there. -/
theorem paging_of_numbered {d : Dialect} {past : UInt64} {upTo : Option UInt64}
    (h : s.paging d = .ok (.numbered past upTo)) :
    d = .rowNumber ∧ s.paging .offsetFetch = .ok (.offset past s.take) := by
  cases paging_eq_ok_iff.1 h with
  | numbered hskip hordering _ => exact ⟨rfl, paging_eq_ok_iff.2 (.offset hskip hordering)⟩

/-- Texts that give the same values to the placeholders of the condition, whatever the values,
name them in the same order. -/
theorem sameOrder_of_bound {names others : List String}
    (h : ∀ values, (s.withValues values).bound names = (s.withValues values).bound others) :
    SameOrder s.owned names others := by
  have hmem (name : String) : name ∈ names ↔ name ∈ others := by
    have hsome := congrArg Option.isSome (congrFun (h []) name)
    by_cases hname : name ∈ names <;> by_cases hother : name ∈ others <;>
      simp [bound, hname, hother] at hsome ⊢
  refine ⟨hmem, ?_⟩
  cases hfilter : s.filter with
  | none =>
    have hnone (l : List String) : l.filter (s.owned.contains ·) = [] := by
      simp [owned, hfilter]
    rw [hnone, hnone]
  | some c =>
    have hgiven (values : List Value) : (s.withValues values).given = values := by
      rw [given, withValues, hfilter]
      rfl
    apply eq_of_idxOf (nodup_eraseDups _) (nodup_eraseDups _)
    · intro name
      simp only [List.mem_eraseDups, List.mem_filter, hmem]
    · intro name hname
      rw [List.mem_eraseDups, List.mem_filter] at hname
      have hvalue := congrFun (h ((names.filter (s.owned.contains ·)).eraseDups.map Value.text))
        name
      simp only [bound, owned_withValues, hgiven] at hvalue
      rw [if_pos hname.1, if_pos ((hmem name).1 hname.1), if_pos hname.2, if_pos hname.2] at hvalue
      exact Option.some.inj hvalue

/-- The dialects agree on the value of every placeholder, whatever the values of the condition,
exactly if the rows cannot be numbered, or if the numbered rows have the same placeholders as the
clauses in their usual order and first name those of the condition in the same order. -/
theorem dialectFree_iff (s : Select) :
    s.DialectFree ↔
      ∀ past upTo, s.paging .rowNumber = .ok (.numbered past upTo) →
        SameOrder s.owned s.usualNames s.numberedNames := by
  constructor
  · intro hfree past upTo hnumbered
    refine sameOrder_of_bound fun values => funext fun name => ?_
    obtain ⟨-, hoffset⟩ := paging_of_numbered hnumbered
    have hrows : (s.withValues values).statement .rowNumber = .ok _ :=
      bind_eq_ok.2 ⟨_, hnumbered, rfl⟩
    have hclauses : (s.withValues values).statement .offsetFetch = .ok _ :=
      bind_eq_ok.2 ⟨_, hoffset, rfl⟩
    obtain ⟨p, hp, hget⟩ := get?_bind_withValues hclauses name
    obtain ⟨p', hp', hget'⟩ := get?_bind_withValues hrows name
    cases hoffset.symm.trans hp
    cases hnumbered.symm.trans hp'
    exact hget.symm.trans ((hfree values _ _ _ _ hclauses hrows name).trans hget')
  · intro hsame values d₁ d₂ st₁ st₂ h₁ h₂ name
    obtain ⟨p₁, hp₁, hget₁⟩ := get?_bind_withValues h₁ name
    obtain ⟨p₂, hp₂, hget₂⟩ := get?_bind_withValues h₂ name
    have husual {d : Dialect} {p : Paging} (hp : s.paging d = .ok p) :
        SameOrder s.owned s.usualNames (s.names p) := by
      cases p with
      | numbered past upTo =>
        obtain ⟨rfl, -⟩ := paging_of_numbered hp
        exact hsame past upTo hp
      | first _ | window _ _ | offset _ _ => exact SameOrder.refl _ _
    have horder : SameOrder s.owned (s.names p₁) (s.names p₂) :=
      (husual hp₁).symm.trans (husual hp₂)
    rw [← owned_withValues s values] at horder
    rw [hget₁, hget₂, bound_congr horder]

/-- Closed clauses have the same placeholders in both orders. If the ordering names no placeholder
of the condition, those of the condition come in in the same order. -/
theorem dialectFree_of_ordering (hcolumns : Closed s.columns) (hsource : Closed s.source)
    (hfilter : Closed ((s.filter.map Condition.text).getD ""))
    (hgrouping : Closed (s.grouping.getD "")) (hordering : Closed (s.ordering.getD ""))
    (hdisjoint : ∀ name ∈ placeholders (s.ordering.getD ""), name ∉ s.owned) : s.DialectFree := by
  have hreads : s.Reads
      { columns := placeholders s.columns
        source := placeholders s.source
        filter := placeholders ((s.filter.map Condition.text).getD "")
        grouping := placeholders (s.grouping.getD "")
        ordering := placeholders (s.ordering.getD "") } :=
    ⟨hcolumns.scans, hsource.scans, hfilter.scans, hgrouping.scans, hordering.scans⟩
  have husual := (hreads.scans_text (.first none)).placeholders_eq
  have hnumbered := hreads.yields_numbered.scans.placeholders_eq
  have hnone : (placeholders (s.ordering.getD "")).filter (s.owned.contains ·) = [] := by
    rw [List.filter_eq_nil_iff]
    simpa using hdisjoint
  rw [dialectFree_iff]
  intro past upTo _
  rw [usualNames, husual, numberedNames, hnumbered]
  refine ⟨fun name => ?_, ?_⟩
  · exact (ClauseNames.mem_numbered _ name).symm
  · simp only [ClauseNames.inText, ClauseNames.usual, ClauseNames.numbered, List.filter_append,
      hnone, List.append_nil, List.append_assoc, List.nil_append]

/-- People over an age, the one of a certain name first, without the first row. The name stands
in the ordering and, behind the age, in the condition. -/
def namedFirst : Select where
  columns := "Id"
  source := "People"
  filter := some ⟨"Age > @min AND Name = @name", [.int32 18, .text "Ada"]⟩
  grouping := none
  ordering := some "NULLIF(Name, @name)"
  skip := some 1
  take := none

/-- The clauses of the selection and their placeholders. -/
theorem reads_namedFirst : namedFirst.Reads ⟨[], [], ["@min", "@name"], [], ["@name"]⟩ := by
  have hfilter : Closed "Age > @min AND Name = @name" ∧
      placeholders "Age > @min AND Name = @name" = ["@min", "@name"] := by decide +kernel
  have hordering : Closed "NULLIF(Name, @name)" ∧
      placeholders "NULLIF(Name, @name)" = ["@name"] := by decide +kernel
  refine ⟨(show Quiet "Id" by decide).yields.scans, (show Quiet "People" by decide).yields.scans,
    ?_, scans_empty, ?_⟩
  · rw [← hfilter.2]
    exact hfilter.1.scans
  · rw [← hordering.2]
    exact hordering.1.scans

/-- Where the rows are numbered the name gets the age. -/
theorem namedFirst_bound :
    ∃ st₁ st₂, namedFirst.statement .top = .ok st₁ ∧ namedFirst.statement .rowNumber = .ok st₂ ∧
      (st₁.bind Command.empty).get? "@name" = some (.text "Ada") ∧
      (st₂.bind Command.empty).get? "@name" = some (.int32 18) ∧ ¬ namedFirst.DialectFree := by
  have husual : namedFirst.usualNames = ["@min", "@name", "@name"] :=
    (reads_namedFirst.scans_text (.first none)).placeholders_eq
  have hnumbered : namedFirst.numberedNames = ["@name", "@min", "@name"] :=
    reads_namedFirst.yields_numbered.scans.placeholders_eq
  have howned : namedFirst.owned = ["@min", "@name"] := reads_namedFirst.filter.placeholders_eq
  have htop : ∃ st, namedFirst.statement .top = .ok st ∧
      (st.bind Command.empty).get? "@name" = some (.text "Ada") := by
    refine ⟨_, rfl, ?_⟩
    obtain ⟨p, hp, hget⟩ := get?_bind_statement (s := namedFirst) (d := .top) rfl "@name"
    cases hp
    rw [hget]
    change namedFirst.bound namedFirst.usualNames "@name" = _
    rw [husual, bound, howned]
    decide
  have hrows : ∃ st, namedFirst.statement .rowNumber = .ok st ∧
      (st.bind Command.empty).get? "@name" = some (.int32 18) := by
    refine ⟨_, rfl, ?_⟩
    obtain ⟨p, hp, hget⟩ := get?_bind_statement (s := namedFirst) (d := .rowNumber) rfl "@name"
    cases hp
    rw [hget]
    change namedFirst.bound namedFirst.numberedNames "@name" = _
    rw [hnumbered, bound, howned]
    decide
  obtain ⟨st₁, hst₁, hname₁⟩ := htop
  obtain ⟨st₂, hst₂, hname₂⟩ := hrows
  refine ⟨st₁, st₂, hst₁, hst₂, hname₁, hname₂, fun hfree => ?_⟩
  have hsame := hfree [.int32 18, .text "Ada"] .top .rowNumber st₁ st₂ hst₁ hst₂ "@name"
  rw [hname₁, hname₂] at hsame
  cases hsame

end Select

end RowQuery.Sql
