import RowQuery.Proofs.Sql.Scanning
import RowQuery.Sql.Term

/-!
# Placeholders in the text of a term

The text of a term is read back by the scanner of placeholders.  It finds the placeholders of
the term in the order in which they are written: quoted pieces of a text match and of a test
for the empty text do not get in its way, and every placeholder is followed by an end.

Main results:

- Definition {lit}`Term.indices`: the numbers of the placeholders of a term, as often as they
  are written.
- Theorem {lit}`Term.scans_text`: the scanner finds these placeholders in the text.
-/

namespace RowQuery.Sql

/-! ## Numbers and operators -/

/-- A natural number is written with digits. -/
theorem isDigit_of_mem_repr {n : Nat} {c : Char} (h : c ∈ n.repr.toList) : c.isDigit = true := by
  rw [Nat.toList_repr] at h
  exact Nat.isDigit_of_mem_toDigits (by decide) (by decide) h

/-- A natural number is written without any other character. -/
theorem notMem_repr (n : Nat) {c : Char} (hc : c.isDigit = false) : c ∉ n.repr.toList := by
  intro h
  rw [isDigit_of_mem_repr h] at hc
  cases hc

/-- A digit does not end a placeholder. -/
theorem isTerminator_eq_false_of_isDigit {c : Char} (h : c.isDigit = true) :
    isTerminator c = false := by
  rw [Bool.eq_false_iff]
  intro hend
  simp only [isTerminator, Text.isAsciiBlank, Bool.or_eq_true, beq_iff_eq] at hend
  rcases hend with ((((((rfl | rfl) | rfl) | rfl) | rfl) | rfl) | rfl) <;> simp at h

/-- A text without at signs and quotes is quiet. -/
theorem quiet_of_notMem {text : String} (hat : '@' ∉ text.toList) (hquote : '\'' ∉ text.toList) :
    Quiet text :=
  ⟨hat, by rw [List.count_eq_zero_of_not_mem hquote]⟩

/-- A natural number is quiet. -/
theorem quiet_repr (n : Nat) : Quiet n.repr :=
  quiet_of_notMem (notMem_repr n (by decide)) (notMem_repr n (by decide))

/-- An integer yields nothing. -/
theorem yields_integerText (n : Int) : Yields (Number.integerText n) [] := by
  have hnat : Yields n.natAbs.repr [] := (quiet_repr n.natAbs).yields
  have hminus : Quiet "-" := by decide
  unfold Number.integerText
  split
  · exact hminus.yields.append hnat
  · exact hnat

/-- The symbol of an operator is quiet. -/
theorem quiet_sql (op : BinaryOp) : Quiet op.sql := by
  rcases op with (_ | _ | _ | _ | _ | _) | (_ | _) | (_ | _ | _ | _ | _) <;> decide

/-- A placeholder is found if an end stands behind its number. -/
theorem scans_placeholder (index : Nat) :
    Scans (Term.placeholder index) [Term.placeholder index] := by
  intro rest hrest
  have htext : (Term.placeholder index).toList = '@' :: index.repr.toList := by
    simp [Term.placeholder]
  have hend : ∀ c ∈ index.repr.toList, isTerminator c = false :=
    fun c hc => isTerminator_eq_false_of_isDigit (isDigit_of_mem_repr hc)
  have hname : isName index.repr.toList = true := by
    cases hdigits : index.repr.toList with
    | nil => simp at hdigits
    | cons c digits =>
      have hc : c.isDigit = true := isDigit_of_mem_repr (hdigits ▸ List.mem_cons_self)
      have hat : c ≠ '@' := by
        rintro rfl
        simp at hc
      simpa [isName] using hat
  rw [List.map_singleton, htext, List.cons_append, tokens, if_neg (by decide),
    if_neg (by simp), takeWhile_append_of_ends hend hrest, dropWhile_append_of_ends hend hrest,
    if_pos hname]
  rfl

/-! ## Terms -/

namespace Term

/-- The numbers of the placeholders of a term in the order in which they are written. -/
def indices : Term → List Nat
  | null => []
  | parameter index => [index]
  | integer _ => []
  | column _ => []
  | operation _ left right => left.indices ++ right.indices
  | nullTest _ t => t.indices
  | isTrue t => t.indices
  | negation t => t.indices
  | nullOrEmpty t => t.indices ++ t.indices
  | like t _ pattern _ => t.indices ++ pattern.indices
  | upper t => t.indices
  | lower t => t.indices
  | trimmed t => t.indices
  | replaced t pattern new => t.indices ++ pattern.indices ++ new.indices
  | piece t start length => t.indices ++ start.indices ++ length.indices

/-- The names of the columns of a term. -/
def columns : Term → List String
  | null => []
  | parameter _ => []
  | integer _ => []
  | column name => [name]
  | operation _ left right => left.columns ++ right.columns
  | nullTest _ t => t.columns
  | isTrue t => t.columns
  | negation t => t.columns
  | nullOrEmpty t => t.columns
  | like t _ pattern _ => t.columns ++ pattern.columns
  | upper t => t.columns
  | lower t => t.columns
  | trimmed t => t.columns
  | replaced t pattern new => t.columns ++ pattern.columns ++ new.columns
  | piece t start length => t.columns ++ start.columns ++ length.columns

/-- The placeholders of a term in the order in which they are written. -/
def names (t : Term) : List String := t.indices.map placeholder

/-- A term between two pieces, the second of which is quiet and starts with an end. -/
theorem yields_enclosed {before text after : String} {bs names : List String}
    (hbefore : Yields before bs) (h : Scans text names) (hafter : Quiet after)
    (hends : after.toList.head?.any isTerminator = true) :
    Yields (before ++ text ++ after) (bs ++ names) :=
  h.between hbefore hafter (ends_append hends)

/-- A term between two quiet pieces, the second of which starts with an end. -/
theorem scans_wrapped {before text after : String} {names : List String} (h : Scans text names)
    (hbefore : Quiet before) (hafter : Quiet after)
    (hends : after.toList.head?.any isTerminator = true) :
    Scans (before ++ text ++ after) names :=
  (yields_enclosed hbefore.yields h hafter hends).scans

/-- The scanner finds the placeholders of a term, provided that the names of its columns are
quiet. -/
theorem scans_text {t : Term} (h : ∀ c ∈ t.columns, Quiet c) : Scans t.text t.names := by
  have hopen : Yields "(" [] := (show Quiet "(" by decide).yields
  have hclose : Quiet ")" := by decide
  have hcomma : Quiet ", " := by decide
  induction t with
  | null => exact (show Quiet "NULL" by decide).yields.scans
  | parameter index => exact scans_placeholder index
  | integer n => exact (yields_integerText n).scans
  | column name => exact (h name List.mem_cons_self).yields.scans
  | operation op left right ihleft ihright =>
    simp only [columns, List.mem_append] at h
    have hblank : Quiet " " := by decide
    have hleft := yields_enclosed hopen (ihleft fun c hc => h c (.inl hc)) hblank (by decide)
    have hop := (hleft.append (quiet_sql op).yields).append hblank.yields
    have hright := yields_enclosed hop (ihright fun c hc => h c (.inr hc)) hclose (by decide)
    rw [names, indices, List.map_append]
    simp only [List.nil_append, List.append_nil] at hright
    exact hright.scans
  | nullTest negated t ih =>
    cases negated with
    | false => exact scans_wrapped (ih h) (by decide) (by decide) (by decide)
    | true => exact scans_wrapped (ih h) (by decide) (by decide) (by decide)
  | isTrue t ih => exact scans_wrapped (ih h) (by decide) (by decide) (by decide)
  | negation t ih => exact (show Quiet "NOT " by decide).yields.append_scans (ih h)
  | nullOrEmpty t ih =>
    have hfirst := yields_enclosed hopen (ih h) (show Quiet " IS NULL OR " by decide) (by decide)
    have hsecond := yields_enclosed hfirst (ih h) (show Quiet " = '')" by decide) (by decide)
    rw [names, indices, List.map_append]
    exact hsecond.scans
  | like t before pattern after iht ihpattern =>
    simp only [columns, List.mem_append] at h
    have ht := yields_enclosed hopen (iht fun c hc => h c (.inl hc))
      (show Quiet " LIKE " by decide) (by decide)
    have hbefore : Quiet (if before then "'%' + " else "") := by
      cases before <;> decide
    have hafter : Quiet (if after then " + '%')" else ")") := by
      cases after <;> decide
    have hends : (if after then " + '%')" else ")").toList.head?.any isTerminator = true := by
      cases after <;> decide
    have hpattern := yields_enclosed (ht.append hbefore.yields)
      (ihpattern fun c hc => h c (.inr hc)) hafter hends
    rw [names, indices, List.map_append]
    simp only [List.nil_append, List.append_nil] at hpattern
    exact hpattern.scans
  | upper t ih => exact scans_wrapped (ih h) (by decide) hclose (by decide)
  | lower t ih => exact scans_wrapped (ih h) (by decide) hclose (by decide)
  | trimmed t ih => exact scans_wrapped (ih h) (by decide) (by decide) (by decide)
  | replaced t pattern new iht ihpattern ihnew =>
    simp only [columns, List.mem_append] at h
    have ht := yields_enclosed (show Quiet "REPLACE(" by decide).yields
      (iht fun c hc => h c (.inl (.inl hc))) hcomma (by decide)
    have hpattern := yields_enclosed ht (ihpattern fun c hc => h c (.inl (.inr hc))) hcomma
      (by decide)
    have hnew := yields_enclosed hpattern (ihnew fun c hc => h c (.inr hc)) hclose (by decide)
    rw [names, indices, List.map_append, List.map_append]
    exact hnew.scans
  | piece t start length iht ihstart ihlength =>
    simp only [columns, List.mem_append] at h
    have ht := yields_enclosed (show Quiet "SUBSTRING(" by decide).yields
      (iht fun c hc => h c (.inl (.inl hc))) hcomma (by decide)
    have hstart := yields_enclosed ht (ihstart fun c hc => h c (.inl (.inr hc)))
      (show Quiet " + 1, " by decide) (by decide)
    have hlength := yields_enclosed hstart (ihlength fun c hc => h c (.inr hc)) hclose
      (by decide)
    rw [names, indices, List.map_append, List.map_append]
    exact hlength.scans

end Term

end RowQuery.Sql
