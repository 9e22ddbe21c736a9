import Mathlib.Data.List.GetD
import Mathlib.Data.List.Nodup
import RowQuery.Proofs.Sql.DialectBinding

/-!
# Joined conditions

Two conditions are joined with all values of the first in front of all values of the second.  A name
that both have draws one value only, so the value that the second condition has for it is drawn by
the next name that is new there.  This module says exactly for which texts every placeholder keeps
its value.

Main results:

- Theorem {lit}`Select.boundBy_eq`: apart from the other clauses, the placeholders of a condition
  get its values in the order in which they first occur.
- Definition {lit}`JoinKeeps`: whatever the values, a joined condition gives every placeholder the
  value that the parts give it.
- Theorem {lit}`joinKeeps_iff`: it does so exactly if the second text names what is new in it before
  it names anything of the first.
-/

namespace RowQuery.Sql

open Outcome

/-! ## Names that are new -/

/-- The distinct placeholders of a text, in the order in which they first occur. -/
def distinctNames (text : String) : List String := (placeholders text).eraseDups

/-- The distinct placeholders of a text that another one does not have. -/
def newNames (known text : String) : List String :=
  (distinctNames text).filter (! (placeholders known).contains ·)

theorem nodup_distinctNames (text : String) : (distinctNames text).Nodup := nodup_eraseDups _

theorem nodup_newNames (known text : String) : (newNames known text).Nodup :=
  (nodup_distinctNames text).filter _

theorem mem_distinctNames {text name : String} :
    name ∈ distinctNames text ↔ name ∈ placeholders text :=
  List.mem_eraseDups

theorem mem_newNames {known text name : String} :
    name ∈ newNames known text ↔ name ∈ placeholders text ∧ name ∉ placeholders known := by
  simp [newNames, mem_distinctNames]

/-- The distinct names of two lists are those of the first and the new ones of the second. -/
theorem eraseDups_append_names (names others : List String) :
    (names ++ others).eraseDups =
      names.eraseDups ++ others.eraseDups.filter (! names.contains ·) := by
  rw [List.eraseDups_append, filter_eraseDups]
  rfl

namespace Condition

/-- A condition has one value for each distinct placeholder of its text. -/
def Filled (c : Condition) : Prop := c.values.length = (distinctNames c.text).length

end Condition

/-! ## Selections apart from their conditions -/

namespace Select

/-- The selection with another condition. -/
def filteredBy (s : Select) (c : Condition) : Select := { s with filter := some c }

/-- What the statement of the selection with a condition binds a name to. -/
def boundBy (s : Select) (d : Dialect) (c : Condition) (name : String) :
    Except Fault (Option Value) :=
  ((s.filteredBy c).statement d).map fun st => (st.bind Command.empty).get? name

/-- The clauses around a condition close their quotes, and none that may stand in front of the
condition has any of some names. -/
structure Apart (s : Select) (names : List String) : Prop where
  columns : Closed s.columns
  source : Closed s.source
  grouping : Closed (s.grouping.getD "")
  ordering : Closed (s.ordering.getD "")
  disjoint : ∀ name ∈ placeholders s.columns ++ placeholders s.source ++
    placeholders (s.ordering.getD ""), name ∉ names

/-- The condition does not matter for the way in which the window is taken. -/
theorem paging_filteredBy (s : Select) (d : Dialect) (c : Condition) :
    (s.filteredBy c).paging d = s.paging d := rfl

variable {s : Select} {c : Condition}

/-- The selection with a condition has the placeholders of its clauses. -/
theorem Apart.reads {names : List String} (hs : s.Apart names)
    (hc : Scans c.text (placeholders c.text)) :
    (s.filteredBy c).Reads
      { columns := placeholders s.columns
        source := placeholders s.source
        filter := placeholders c.text
        grouping := placeholders (s.grouping.getD "")
        ordering := placeholders (s.ordering.getD "") } :=
  ⟨hs.columns.scans, hs.source.scans, hc, hs.grouping.scans, hs.ordering.scans⟩

/-- The placeholders of a condition come in in the order of its text. -/
theorem eraseDups_names (hs : s.Apart (placeholders c.text))
    (hc : Scans c.text (placeholders c.text)) (p : Paging) :
    (((s.filteredBy c).names p).filter ((s.filteredBy c).owned.contains ·)).eraseDups =
      distinctNames c.text := by
  have howned : (s.filteredBy c).owned = placeholders c.text := rfl
  have hnone (names : List String) (h : ∀ name ∈ names, name ∉ placeholders c.text) :
      names.filter ((placeholders c.text).contains ·) = [] := by
    rw [List.filter_eq_nil_iff]
    simpa using h
  have hfront := hs.disjoint
  simp only [List.mem_append, or_imp, forall_and] at hfront
  have hall : (placeholders c.text).filter ((placeholders c.text).contains ·) =
      placeholders c.text := by
    rw [List.filter_eq_self]
    simp
  -- The grouping stands behind the condition, so what it shares with it came in before.
  have hbehind : (placeholders c.text ++ (placeholders (s.grouping.getD "")).filter
      ((placeholders c.text).contains ·)).eraseDups = distinctNames c.text := by
    have hknown : ∀ name ∈ ((placeholders (s.grouping.getD "")).filter
        ((placeholders c.text).contains ·)).eraseDups,
        ¬ (! (placeholders c.text).contains name) = true := by
      simp
    rw [eraseDups_append_names, List.filter_eq_nil_iff.2 hknown, List.append_nil, distinctNames]
  rw [← placeholders_text, ((hs.reads hc).scans_text p).placeholders_eq, howned]
  cases p <;>
    simpa only [ClauseNames.inText, ClauseNames.usual, ClauseNames.numbered, List.filter_append,
      hnone _ hfront.1.1, hnone _ hfront.1.2, hnone _ hfront.2, hall, List.nil_append,
      List.append_nil] using hbehind

/-- A placeholder of a condition gets the value at its place among the distinct ones. -/
theorem boundBy_eq (hs : s.Apart (placeholders c.text))
    (hc : Scans c.text (placeholders c.text)) {d : Dialect} {p : Paging}
    (hp : s.paging d = .ok p) {name : String} (hname : name ∈ placeholders c.text) :
    s.boundBy d c name =
      .ok (some (c.values.getD ((distinctNames c.text).idxOf name) .null)) := by
  have hstatement : (s.filteredBy c).statement d = .ok _ := bind_eq_ok.2 ⟨p, hp, rfl⟩
  rcases get?_bind_statement hstatement name with ⟨p', -, hget⟩
  have hmem : name ∈ (s.filteredBy c).names p' := by
    have hfilter : name ∈
        ((s.filteredBy c).names p').filter ((s.filteredBy c).owned.contains ·) := by
      rwa [← List.mem_eraseDups, eraseDups_names hs hc, mem_distinctNames]
    exact (List.mem_filter.1 hfilter).1
  have howned : (s.filteredBy c).owned.contains name = true := List.contains_iff_mem.2 hname
  rw [boundBy, hstatement]
  refine congrArg Except.ok (hget.trans ?_)
  rw [bound, if_pos hmem, if_pos howned, eraseDups_names hs hc]
  rfl

/-- Without a window no condition gets values. -/
theorem boundBy_of_error {d : Dialect} {fault : Fault} (hp : s.paging d = .error fault)
    (c : Condition) (name : String) : s.boundBy d c name = .error fault := by
  have hstatement : (s.filteredBy c).statement d = .error fault := by
    rw [statement, paging_filteredBy, hp]
    rfl
  rw [boundBy, hstatement]
  rfl

/-- Clauses that are apart from some names are apart from fewer. -/
theorem Apart.mono {names fewer : List String} (hs : s.Apart names)
    (h : ∀ name ∈ fewer, name ∈ names) : s.Apart fewer :=
  { hs with disjoint := fun name hname hfewer => hs.disjoint name hname (h name hfewer) }

end Select

/-! ## What a joined condition keeps -/

section Joined

variable {a b : Condition}

/-- The placeholders of a joined condition are those of its parts. -/
theorem placeholders_join (ha : Closed a.text) (hb : Closed b.text) (op : Connective) :
    placeholders (a.join op b).text = placeholders a.text ++ placeholders b.text :=
  (scans_join ha.scans hb.scans).placeholders_eq

/-- The names of the first part come in first, then those that are new in the second one. -/
theorem distinctNames_join (ha : Closed a.text) (hb : Closed b.text) (op : Connective) :
    distinctNames (a.join op b).text = distinctNames a.text ++ newNames a.text b.text := by
  rw [distinctNames, placeholders_join ha hb, eraseDups_append_names]
  rfl

variable {s : Select} {d : Dialect} {p : Paging} {name : String}

/-- A placeholder of a joined condition gets the value at its place among those of the first part
and the new ones of the second. -/
theorem boundBy_join (hs : s.Apart (placeholders a.text ++ placeholders b.text))
    (ha : Closed a.text) (hb : Closed b.text) (hp : s.paging d = .ok p) (op : Connective)
    (hname : name ∈ placeholders a.text ++ placeholders b.text) :
    s.boundBy d (a.join op b) name =
      .ok (some ((a.values ++ b.values).getD
        ((distinctNames a.text ++ newNames a.text b.text).idxOf name) .null)) := by
  have hjoined := placeholders_join ha hb op
  have hscans : Scans (a.join op b).text (placeholders (a.join op b).text) := by
    rw [hjoined]
    exact scans_join ha.scans hb.scans
  rw [← hjoined] at hs hname
  rw [Select.boundBy_eq hs hscans hp hname, distinctNames_join ha hb]
  rfl

/-- The first part has its values in front. -/
theorem boundBy_join_of_mem (hs : s.Apart (placeholders a.text ++ placeholders b.text))
    (ha : Closed a.text) (hb : Closed b.text) (hp : s.paging d = .ok p) (op : Connective)
    (hfilled : a.Filled) (hname : name ∈ placeholders a.text) :
    s.boundBy d (a.join op b) name = s.boundBy d a name := by
  have hfirst := hs.mono fun other hother => List.mem_append_left _ hother
  have hdistinct : name ∈ distinctNames a.text := mem_distinctNames.2 hname
  have hplace : (distinctNames a.text).idxOf name < a.values.length := by
    rw [hfilled]
    exact List.idxOf_lt_length_of_mem hdistinct
  rw [boundBy_join hs ha hb hp op (List.mem_append_left _ hname),
    Select.boundBy_eq hfirst ha.scans hp hname, List.idxOf_append_of_mem hdistinct,
    List.getD_append _ _ _ _ hplace]

/-- A name that is new in the second part gets the value at its place among the new names. -/
theorem boundBy_join_of_new (hs : s.Apart (placeholders a.text ++ placeholders b.text))
    (ha : Closed a.text) (hb : Closed b.text) (hp : s.paging d = .ok p) (op : Connective)
    (hfilled : a.Filled) (hname : name ∈ newNames a.text b.text) :
    s.boundBy d (a.join op b) name =
      .ok (some (b.values.getD ((newNames a.text b.text).idxOf name) .null)) := by
  have hnew := mem_newNames.1 hname
  have hdistinct : name ∉ distinctNames a.text := mt mem_distinctNames.1 hnew.2
  have hbehind : a.values.length ≤
      (distinctNames a.text).length + (newNames a.text b.text).idxOf name := by
    rw [hfilled]
    exact Nat.le_add_right _ _
  rw [boundBy_join hs ha hb hp op (List.mem_append_right _ hnew.1),
    List.idxOf_append_of_notMem hdistinct, List.getD_append_right _ _ _ _ hbehind, hfilled,
    Nat.add_sub_cancel_left]

end Joined

/-! ## Places -/

/-- Distinct names stand at the same places in a part and in the whole exactly if the part is the
beginning. -/
theorem prefix_iff_idxOf {part whole : List String} (hpart : part.Nodup)
    (hmem : ∀ name ∈ part, name ∈ whole) :
    part <+: whole ↔ ∀ name ∈ part, part.idxOf name = whole.idxOf name := by
  constructor
  · rintro ⟨behind, rfl⟩ name hname
    exact (List.idxOf_append_of_mem hname).symm
  · intro h
    have hat (i : Nat) (hi : i < part.length) : whole[i]? = some part[i] := by
      have hplace := h part[i] (List.getElem_mem hi)
      rw [hpart.idxOf_getElem i hi] at hplace
      have hlt := List.idxOf_lt_length_of_mem (hmem part[i] (List.getElem_mem hi))
      calc
        whole[i]? = whole[whole.idxOf part[i]]? := congrArg (whole[·]?) hplace
        _ = some part[i] := by rw [List.getElem?_eq_getElem hlt, List.getElem_idxOf]
    rw [List.prefix_iff_getElem?]
    exact hat

/-- Whatever values a list of distinct names has, a place further in front or behind has another
one for some. -/
theorem idxOf_eq_of_getD {names : List String} {i : Nat} {name : String} (hname : name ∈ names)
    (hnodup : names.Nodup)
    (h : (names.map Value.text).getD i .null =
      (names.map Value.text).getD (names.idxOf name) .null) :
    i = names.idxOf name := by
  have hplace := List.idxOf_lt_length_of_mem hname
  rw [List.getD_eq_getElem?_getD, List.getD_eq_getElem?_getD, List.getElem?_map, List.getElem?_map,
    List.getElem?_eq_getElem hplace] at h
  by_cases hi : i < names.length
  · rw [List.getElem?_eq_getElem hi] at h
    have hsame : names[i] = names[names.idxOf name] := Value.text.inj h
    exact (hnodup.getElem_inj_iff).1 hsame
  · rw [List.getElem?_eq_none (Nat.le_of_not_lt hi)] at h
    cases h

/-! ## Texts whose placeholders keep their values -/

/-- Whatever their values, conditions with two texts keep them when they are joined: in each
selection every placeholder of the first text, and every one that is new in the second, gets what
its own condition alone gives it. -/
def JoinKeeps (a b : String) : Prop :=
  ∀ (op : Connective) (s : Select) (d : Dialect) (as bs : List Value),
    s.Apart (placeholders a ++ placeholders b) →
    Condition.Filled ⟨a, as⟩ → Condition.Filled ⟨b, bs⟩ →
    (∀ name ∈ placeholders a,
      s.boundBy d (Condition.join op ⟨a, as⟩ ⟨b, bs⟩) name = s.boundBy d ⟨a, as⟩ name) ∧
    (∀ name ∈ newNames a b,
      s.boundBy d (Condition.join op ⟨a, as⟩ ⟨b, bs⟩) name = s.boundBy d ⟨b, bs⟩ name)

variable {a b : String}

/-- Joined conditions keep their values if each name that is new in the second text has the same
place among the new ones and among all. -/
theorem joinKeeps_of_idxOf (ha : Closed a) (hb : Closed b)
    (h : ∀ name ∈ newNames a b, (newNames a b).idxOf name = (distinctNames b).idxOf name) :
    JoinKeeps a b := by
  intro op s d as bs hs has hbs
  cases hp : s.paging d with
  | error fault => simp only [Select.boundBy_of_error hp, implies_true, and_self]
  | ok p =>
    refine ⟨fun name hname => ?_, fun name hname => ?_⟩
    · exact boundBy_join_of_mem (a := ⟨a, as⟩) (b := ⟨b, bs⟩) hs ha hb hp op has hname
    · have hsecond : s.Apart (placeholders b) :=
        hs.mono fun other hother => List.mem_append_right _ hother
      rw [boundBy_join_of_new (a := ⟨a, as⟩) (b := ⟨b, bs⟩) hs ha hb hp op has hname,
        Select.boundBy_eq (c := ⟨b, bs⟩) hsecond hb.scans hp (mem_newNames.1 hname).1,
        h name hname]

/-- Joined conditions without a common placeholder keep their values. -/
theorem joinKeeps_of_disjoint (ha : Closed a) (hb : Closed b)
    (h : ∀ name ∈ placeholders b, name ∉ placeholders a) : JoinKeeps a b := by
  have hnew : newNames a b = distinctNames b := by
    rw [newNames, List.filter_eq_self]
    intro name hname
    simpa using h name (mem_distinctNames.1 hname)
  refine joinKeeps_of_idxOf ha hb fun name _ => ?_
  rw [hnew]

/-- All columns of one source, without further clauses. -/
def everything : Select := .of "*" "T"

/-- Without further clauses nothing stands around a condition. -/
theorem apart_everything (names : List String) : everything.Apart names where
  columns := by decide +kernel
  source := by decide +kernel
  grouping := by decide +kernel
  ordering := by decide +kernel
  disjoint := by
    have hnone : placeholders everything.columns ++ placeholders everything.source ++
        placeholders (everything.ordering.getD "") = [] := by decide +kernel
    simp [hnone]

/-- If joined conditions keep all values, each name that is new in the second text has the same
place among the new ones and among all. -/
theorem idxOf_of_joinKeeps (ha : Closed a) (hb : Closed b) (h : JoinKeeps a b) :
    ∀ name ∈ newNames a b, (newNames a b).idxOf name = (distinctNames b).idxOf name := by
  intro name hname
  have hall := apart_everything (placeholders a ++ placeholders b)
  have has : Condition.Filled ⟨a, (distinctNames a).map Value.text⟩ := List.length_map _
  have hbs : Condition.Filled ⟨b, (distinctNames b).map Value.text⟩ := List.length_map _
  have hmem := (mem_newNames.1 hname).1
  have hkept := (h .and everything .top _ _ hall has hbs).2 name hname
  have hsecond : everything.Apart (placeholders b) :=
    hall.mono fun other hother => List.mem_append_right _ hother
  rw [boundBy_join_of_new (a := ⟨a, _⟩) (b := ⟨b, _⟩) hall ha hb rfl .and has hname,
    Select.boundBy_eq (c := ⟨b, _⟩) hsecond hb.scans rfl hmem] at hkept
  exact idxOf_eq_of_getD (mem_distinctNames.2 hmem) (nodup_distinctNames b)
    (Option.some.inj (Except.ok.inj hkept))

/-- Joined conditions keep all values exactly if the second text names what is new in it before
anything that the first text has as well. -/
theorem joinKeeps_iff (ha : Closed a) (hb : Closed b) :
    JoinKeeps a b ↔ newNames a b <+: distinctNames b := by
  rw [prefix_iff_idxOf (nodup_newNames a b) fun name hname =>
    mem_distinctNames.2 (mem_newNames.1 hname).1]
  exact ⟨idxOf_of_joinKeeps ha hb, joinKeeps_of_idxOf ha hb⟩

/-- A name that is new in front of one that both conditions have. -/
theorem joinKeeps_newFirst :
    Closed "Age > @min" ∧ Closed "Name = @name AND Rank > @min" ∧
      JoinKeeps "Age > @min" "Name = @name AND Rank > @min" := by
  have hfirst : Closed "Age > @min" := by decide +kernel
  have hsecond : Closed "Name = @name AND Rank > @min" := by decide +kernel
  refine ⟨hfirst, hsecond, (joinKeeps_iff hfirst hsecond).2 ?_⟩
  have hnew : newNames "Age > @min" "Name = @name AND Rank > @min" = ["@name"] := by
    decide +kernel
  have hall : distinctNames "Name = @name AND Rank > @min" = ["@name", "@min"] := by
    decide +kernel
  rw [hnew, hall]
  exact List.prefix_append ["@name"] ["@min"]

/-- People over an age. -/
def older : Condition := ⟨"Age > @min", [.int32 18]⟩

/-- People of a certain name over a rank, which the text calls like the age. -/
def ranked : Condition := ⟨"Rank > @min AND Name = @name", [.int32 5, .text "Ada"]⟩

/-- Joined with the condition on the age, the name gets the rank. -/
theorem ranked_bound :
    (Closed older.text ∧ older.Filled) ∧ (Closed ranked.text ∧ ranked.Filled) ∧
      everything.boundBy .top ranked "@name" = .ok (some (.text "Ada")) ∧
      everything.boundBy .top (older.and ranked) "@name" = .ok (some (.int32 5)) ∧
      ¬ JoinKeeps older.text ranked.text := by
  have hfirst : Closed older.text := by decide +kernel
  have hsecond : Closed ranked.text := by decide +kernel
  have hnames : distinctNames older.text = ["@min"] ∧
      distinctNames ranked.text = ["@min", "@name"] ∧
      newNames older.text ranked.text = ["@name"] ∧ "@name" ∈ placeholders ranked.text := by
    decide +kernel
  rcases hnames with ⟨hold, hrank, hnew, hmem⟩
  have hall := apart_everything (placeholders older.text ++ placeholders ranked.text)
  have holder : older.Filled := by rw [Condition.Filled, hold]; rfl
  have hranked : ranked.Filled := by rw [Condition.Filled, hrank]; rfl
  have halone : everything.boundBy .top ranked "@name" = .ok (some (.text "Ada")) := by
    have happart : everything.Apart (placeholders ranked.text) := apart_everything _
    rw [Select.boundBy_eq happart hsecond.scans rfl hmem, hrank]
    rfl
  have hjoined : everything.boundBy .top (older.and ranked) "@name" = .ok (some (.int32 5)) := by
    rw [Condition.and, boundBy_join_of_new hall hfirst hsecond rfl .and holder
      (by rw [hnew]; exact List.mem_cons_self), hnew]
    rfl
  refine ⟨⟨hfirst, holder⟩, ⟨hsecond, hranked⟩, halone, hjoined, fun hkeeps => ?_⟩
  have hsame := (hkeeps .and everything .top older.values ranked.values hall holder hranked).2
    "@name" (by rw [hnew]; exact List.mem_cons_self)
  have hdiffers : (Except.ok (some (.int32 5)) : Except Fault (Option Value)) =
      .ok (some (.text "Ada")) := hjoined.symm.trans (hsame.trans halone)
  cases hdiffers

end RowQuery.Sql
