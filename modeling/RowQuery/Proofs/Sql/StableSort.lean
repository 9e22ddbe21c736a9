/-!
# Stable sorting by several keys

Rows are ordered by keys, the first of which counts most, and rows that are tied under all keys
keep their order.  A list that is sorted that way is known by its order and by the rows of each tie
in their order, so two such lists are compared tie by tie.

Main results:

- Theorem {lit}`eq_of_tied`: two ordered lists with the same ties are the same.
- Theorem {lit}`filter_mergeSort`: rows may be filtered in front of a stable sort or behind it.
- Theorem {lit}`mergeSort_mergeSort`: a stable sort in front of a finer one does not matter.
- Definition {lit}`byKeys`: the order by several keys; {lit}`byKeys_of_append` says that more keys
  make it finer.
-/

namespace RowQuery.Sql

variable {α : Type}

/-! ## Orders with ties -/

/-- Any two rows can be compared, and the comparisons fit together.  Different rows may be tied. -/
structure Orders (le : α → α → Bool) : Prop where
  total : ∀ a b, (le a b || le b a) = true
  trans : ∀ a b c, le a b = true → le b c = true → le a c = true

/-- Two rows are tied. -/
def tied (le : α → α → Bool) (a b : α) : Bool := le a b && le b a

variable {le finer : α → α → Bool}

/-- A row is not behind itself. -/
theorem Orders.refl (h : Orders le) (a : α) : le a a = true := by
  simpa using h.total a a

/-- A row is tied with itself. -/
theorem Orders.tied_self (h : Orders le) (a : α) : tied le a a = true := by
  rw [tied, h.refl, Bool.and_self]

/-- Rows that are tied with a row are not behind each other. -/
theorem Orders.le_of_tied (h : Orders le) {a b c : α} (hb : tied le a b = true)
    (hc : tied le a c = true) : le b c = true := by
  rw [tied, Bool.and_eq_true] at hb hc
  exact h.trans b a c hb.2 hc.1

/-! ## Sorted lists -/

/-- The ties of a sorted list are those of the list, in their order. -/
theorem filter_tied_mergeSort (h : Orders le) (a : α) (rows : List α) :
    (rows.mergeSort le).filter (tied le a) = rows.filter (tied le a) := by
  have hordered : (rows.filter (tied le a)).Pairwise (le · ·) := by
    refine List.pairwise_of_forall_mem_list fun b hb c hc => ?_
    exact h.le_of_tied (List.mem_filter.1 hb).2 (List.mem_filter.1 hc).2
  have hsublist : (rows.filter (tied le a)).Sublist (rows.mergeSort le) :=
    List.sublist_mergeSort h.trans h.total hordered List.filter_sublist
  have hties : (rows.filter (tied le a)).Sublist ((rows.mergeSort le).filter (tied le a)) := by
    simpa only [List.filter_filter, Bool.and_self] using hsublist.filter (tied le a)
  have hlength : ((rows.mergeSort le).filter (tied le a)).length =
      (rows.filter (tied le a)).length :=
    ((List.mergeSort_perm rows le).filter (tied le a)).length_eq
  exact (hties.eq_of_length hlength.symm).symm

/-- The first row of an ordered list is not behind any of its rows. -/
theorem le_of_mem_ordered (h : Orders le) {a b : α} {rows : List α}
    (hordered : (a :: rows).Pairwise (le · ·)) (hb : b ∈ a :: rows) : le a b = true := by
  rcases List.mem_cons.1 hb with rfl | hb
  · exact h.refl b
  · exact (List.pairwise_cons.1 hordered).1 b hb

/-- A row that is tied with itself is a row of any list with the same ties. -/
theorem mem_of_tied (h : Orders le) {rows others : List α}
    (hties : ∀ a, rows.filter (tied le a) = others.filter (tied le a)) {a : α} (ha : a ∈ rows) :
    a ∈ others := by
  have hmem : a ∈ rows.filter (tied le a) := List.mem_filter.2 ⟨ha, h.tied_self a⟩
  rw [hties] at hmem
  exact (List.mem_filter.1 hmem).1

/-- Two ordered lists with the same ties are the same. -/
theorem eq_of_tied (h : Orders le) {rows others : List α} (hrows : rows.Pairwise (le · ·))
    (hothers : others.Pairwise (le · ·))
    (hties : ∀ a, rows.filter (tied le a) = others.filter (tied le a)) : rows = others := by
  induction rows generalizing others with
  | nil =>
    refine (List.eq_nil_iff_forall_not_mem.2 fun b hb => ?_).symm
    exact List.not_mem_nil (mem_of_tied h (fun a => (hties a).symm) hb)
  | cons a rows ih =>
    cases others with
    | nil => exact absurd (mem_of_tied h hties List.mem_cons_self) List.not_mem_nil
    | cons b others =>
      -- Each of the first rows is a row of the other list, and so they are tied.
      have hab := le_of_mem_ordered h hrows
        (mem_of_tied h (fun c => (hties c).symm) List.mem_cons_self)
      have hba := le_of_mem_ordered h hothers (mem_of_tied h hties List.mem_cons_self)
      have htied : tied le a b = true := by rw [tied, hab, hba, Bool.and_self]
      have hfirst := hties a
      rw [List.filter_cons_of_pos (h.tied_self a), List.filter_cons_of_pos htied] at hfirst
      obtain rfl : a = b := (List.cons.inj hfirst).1
      have hrest : ∀ c, rows.filter (tied le c) = others.filter (tied le c) := by
        intro c
        have hboth := hties c
        by_cases hc : tied le c a = true
        · rw [List.filter_cons_of_pos hc, List.filter_cons_of_pos hc] at hboth
          exact (List.cons.inj hboth).2
        · rwa [List.filter_cons_of_neg hc, List.filter_cons_of_neg hc] at hboth
      rw [ih (List.pairwise_cons.1 hrows).2 (List.pairwise_cons.1 hothers).2 hrest]

/-- Two filters may change places. -/
theorem filter_swap (p q : α → Bool) (rows : List α) :
    (rows.filter p).filter q = (rows.filter q).filter p := by
  simp only [List.filter_filter, Bool.and_comm]

/-- Rows may be filtered in front of a stable sort or behind it. -/
theorem filter_mergeSort (h : Orders le) (p : α → Bool) (rows : List α) :
    (rows.mergeSort le).filter p = (rows.filter p).mergeSort le := by
  refine eq_of_tied h ((List.pairwise_mergeSort h.trans h.total rows).filter p)
    (List.pairwise_mergeSort h.trans h.total _) fun a => ?_
  calc ((rows.mergeSort le).filter p).filter (tied le a)
      = ((rows.mergeSort le).filter (tied le a)).filter p := filter_swap ..
    _ = (rows.filter (tied le a)).filter p := by rw [filter_tied_mergeSort h]
    _ = (rows.filter p).filter (tied le a) := filter_swap ..
    _ = ((rows.filter p).mergeSort le).filter (tied le a) := (filter_tied_mergeSort h a _).symm

/-- A stable sort in front of a finer one does not matter. -/
theorem mergeSort_mergeSort (h : Orders le) (hfiner : Orders finer)
    (himp : ∀ a b, finer a b = true → le a b = true) (rows : List α) :
    (rows.mergeSort le).mergeSort finer = rows.mergeSort finer := by
  refine eq_of_tied hfiner (List.pairwise_mergeSort hfiner.trans hfiner.total _)
    (List.pairwise_mergeSort hfiner.trans hfiner.total _) fun a => ?_
  -- Rows that are tied in the finer order are tied in the other one.
  have htied (l : List α) :
      l.filter (tied finer a) = (l.filter (tied le a)).filter (tied finer a) := by
    rw [List.filter_filter]
    refine List.filter_congr fun b _ => ?_
    cases hb : tied finer a b with
    | false => rfl
    | true =>
      rw [tied, Bool.and_eq_true] at hb
      rw [tied, himp a b hb.1, himp b a hb.2]
      rfl
  calc ((rows.mergeSort le).mergeSort finer).filter (tied finer a)
      = (rows.mergeSort le).filter (tied finer a) := filter_tied_mergeSort hfiner a _
    _ = ((rows.mergeSort le).filter (tied le a)).filter (tied finer a) := htied _
    _ = (rows.filter (tied le a)).filter (tied finer a) := by rw [filter_tied_mergeSort h]
    _ = rows.filter (tied finer a) := (htied rows).symm
    _ = (rows.mergeSort finer).filter (tied finer a) := (filter_tied_mergeSort hfiner a rows).symm

/-! ## Several keys -/

/-- The order by several keys, each of which decides the ties of those before it. -/
def byKeys (le : String → α → α → Bool) : List String → α → α → Bool
  | [], _, _ => true
  | key :: keys, a, b => le key a b && (!le key b a || byKeys le keys a b)

/-- The order by several keys is an order if that by each key is one. -/
theorem orders_byKeys {le : String → α → α → Bool} (h : ∀ key, Orders (le key))
    (keys : List String) : Orders (byKeys le keys) := by
  induction keys with
  | nil => exact ⟨fun _ _ => rfl, fun _ _ _ _ _ => rfl⟩
  | cons key keys ih =>
    refine ⟨fun a b => ?_, fun a b c hab hbc => ?_⟩
    · have hkey := (h key).total a b
      have hkeys := ih.total a b
      simp only [byKeys]
      cases hab : le key a b <;> cases hba : le key b a <;> simp_all
    · simp only [byKeys, Bool.and_eq_true, Bool.or_eq_true, Bool.not_eq_true'] at hab hbc ⊢
      refine ⟨(h key).trans a b c hab.1 hbc.1, ?_⟩
      cases hca : le key c a with
      | false => exact .inl rfl
      | true =>
        -- All three rows are tied under the key, and so the other keys decide.
        have hba : le key b a = true := (h key).trans b c a hbc.1 hca
        have hcb : le key c b = true := (h key).trans c a b hca hab.1
        rw [hba] at hab
        rw [hcb] at hbc
        exact .inr (ih.trans a b c (hab.2.resolve_left Bool.noConfusion)
          (hbc.2.resolve_left Bool.noConfusion))

/-- More keys make an order finer. -/
theorem byKeys_of_append {le : String → α → α → Bool} {keys more : List String} {a b : α}
    (h : byKeys le (keys ++ more) a b = true) : byKeys le keys a b = true := by
  induction keys with
  | nil => rfl
  | cons key keys ih =>
    simp only [List.cons_append, byKeys, Bool.and_eq_true, Bool.or_eq_true] at h ⊢
    exact ⟨h.1, h.2.imp id ih⟩

/-- Rows that are sorted by some keys may be sorted again by more keys. -/
theorem mergeSort_byKeys_append {le : String → α → α → Bool} (h : ∀ key, Orders (le key))
    (keys more : List String) (rows : List α) :
    (rows.mergeSort (byKeys le keys)).mergeSort (byKeys le (keys ++ more)) =
      rows.mergeSort (byKeys le (keys ++ more)) :=
  mergeSort_mergeSort (orders_byKeys h keys) (orders_byKeys h (keys ++ more))
    (fun _ _ => byKeys_of_append) rows

end RowQuery.Sql
