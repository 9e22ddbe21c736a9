import RowQuery.NamedList
import RowQuery.Proofs.Sql.Numbering
import RowQuery.Proofs.Sql.TermText
import RowQuery.Sql.Statement

/-!
# Binding numbered placeholders

The placeholders of a statement get their values when the text of the statement is read again.
When all of them stand in one source, and bring in their numbers one after the other, each gets
the value with its number.

Main results:

- Theorem {lit}`bindFrom_numbered`: how a single source is used up.
- Theorem {lit}`bindings_of_numbered`: the values that the placeholders of a statement get.
- Theorem {lit}`bind_empty`: the parameters of a command that was empty.
-/

namespace RowQuery.Sql

/-! ## Numbered values -/

/-- Values under the placeholders that number them, from a number on. -/
def parametersFrom (n : Nat) (values : List Value) : List (String × Value) :=
  (values.zipIdx n).map fun (v, i) => (Term.placeholder i, v)

/-- Values under the placeholders that number them from zero. -/
def parametersOf (values : List Value) : List (String × Value) := parametersFrom 0 values

/-- Placeholders of different numbers differ. -/
theorem placeholder_inj {i j : Nat} : Term.placeholder i = Term.placeholder j ↔ i = j := by
  constructor
  · intro h
    have hrepr : i.repr.toList = j.repr.toList := by
      simpa [Term.placeholder] using congrArg String.toList h
    rw [Nat.toList_repr, Nat.toList_repr] at hrepr
    have hnumber := congrArg (Nat.ofDigitChars 10 · 0) hrepr
    simpa only [Nat.ofDigitChars_ten_toDigits] using hnumber
  · exact congrArg Term.placeholder

/-- Numbered values stand under distinct names. -/
theorem nodup_parametersFrom (n : Nat) (values : List Value) :
    ((parametersFrom n values).map Prod.fst).Nodup := by
  induction values generalizing n with
  | nil => exact List.nodup_nil
  | cons v rest ih =>
    have hnew : Term.placeholder n ∉ (parametersFrom (n + 1) rest).map Prod.fst := by
      intro hmem
      simp only [parametersFrom, List.map_map, List.mem_map] at hmem
      obtain ⟨⟨w, i⟩, hi, hname⟩ := hmem
      have hle : n + 1 ≤ i := List.le_snd_of_mem_zipIdx hi
      have heq : i = n := placeholder_inj.1 hname
      omega
    exact List.nodup_cons.2 ⟨hnew, ih (n + 1)⟩

/-! ## One source -/

/-- The values of a single source go to its placeholders in the order in which their numbers
come in. -/
theorem bindFrom_numbered {n m : Nat} {indices : List Nat} {bound names : List String}
    {values : List Value} (h : Numbered n indices m)
    (hbound : ∀ i, Term.placeholder i ∈ bound ↔ i < n)
    (hnames : ∀ i ∈ indices, Term.placeholder i ∈ names) (hcount : n + values.length = m) :
    bindFrom bound [⟨names, values⟩] (indices.map Term.placeholder) = parametersFrom n values := by
  induction h generalizing bound values with
  | nil n =>
    have hnil : values = [] := List.eq_nil_of_length_eq_zero (by omega)
    rw [hnil]
    rfl
  | old hlt hrest ih =>
    have hmem : bound.contains (Term.placeholder _) = true :=
      List.contains_iff_mem.2 ((hbound _).2 hlt)
    rw [List.map_cons, bindFrom, if_pos hmem]
    exact ih hbound (fun i hi => hnames i (List.mem_cons_of_mem _ hi)) hcount
  | @new n m rest hrest ih =>
    have hle : n + 1 ≤ m := hrest.le
    have hnotMem : ¬ bound.contains (Term.placeholder n) = true := by
      rw [List.contains_iff_mem, hbound]
      exact Nat.lt_irrefl n
    have howned : names.contains (Term.placeholder n) = true :=
      List.contains_iff_mem.2 (hnames n List.mem_cons_self)
    obtain ⟨v, values, rfl⟩ : ∃ v vs, values = v :: vs := by
      cases values with
      | nil => exact absurd hcount (by simp; omega)
      | cons v vs => exact ⟨v, vs, rfl⟩
    have hbound' : ∀ i, Term.placeholder i ∈ Term.placeholder n :: bound ↔ i < n + 1 := by
      intro i
      rw [List.mem_cons, placeholder_inj, hbound, Nat.lt_succ_iff_lt_or_eq, or_comm]
    have hcount' : n + 1 + values.length = m := by
      rw [List.length_cons] at hcount
      omega
    have htail := ih hbound' (fun i hi => hnames i (List.mem_cons_of_mem n hi)) hcount'
    rw [List.map_cons, bindFrom, if_neg hnotMem, draw, if_pos howned]
    exact congrArg ((Term.placeholder n, v) :: ·) htail

/-! ## Statements -/

/-- The placeholders of a text whose only source names them in turn get the values of the
source. -/
theorem bindings_of_numbered {sql : String} {source : ParameterSource} {indices : List Nat}
    (hsql : Scans sql (indices.map Term.placeholder))
    (hsource : Scans source.text (indices.map Term.placeholder))
    (h : Numbered 0 indices source.values.length) :
    bindings sql [source] = parametersOf source.values := by
  have hbound : ∀ i, Term.placeholder i ∈ ([] : List String) ↔ i < 0 := by simp
  rw [bindings, hsql.placeholders_eq, List.map_singleton, ParameterSource.queue,
    hsource.placeholders_eq]
  exact bindFrom_numbered h hbound (fun i hi => List.mem_map_of_mem hi) (Nat.zero_add _)

/-- A text without placeholders gets no values. -/
theorem bindings_of_scans_nil {sql : String} (h : Scans sql []) (sources : List ParameterSource) :
    bindings sql sources = [] := by
  rw [bindings, h.placeholders_eq]
  rfl

/-- Parameters are added to the list of the parameters of a command. -/
theorem foldl_add (entries : List (String × Value)) (c : Command) :
    entries.foldl (fun c (name, v) => c.add name v) c =
      { c with parameters :=
          entries.foldl (fun list (name, v) => NamedList.put name v list) c.parameters } := by
  induction entries generalizing c with
  | nil => rfl
  | cons entry rest ih =>
    rw [List.foldl_cons, ih, List.foldl_cons]
    rfl

/-- A command that was empty holds the text of the statement and the parametersOf values, in their
order. -/
theorem bind_empty {s : Statement} {values : List Value}
    (h : bindings s.text s.sources = parametersOf values) :
    s.bind Command.empty = ⟨s.text, parametersOf values⟩ := by
  have hnodup : (([] ++ parametersFrom 0 values).map Prod.fst).Nodup :=
    nodup_parametersFrom 0 values
  have hput := NamedList.foldl_put_of_nodup hnodup
  rw [Statement.bind, bind, h, foldl_add]
  exact congrArg (Command.mk s.text) hput

end RowQuery.Sql
