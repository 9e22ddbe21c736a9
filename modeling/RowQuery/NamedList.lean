/-!
# Lists of named entries

Entries under distinct names, in the order in which the names were first used.

Main results:

- {lit}`put` keeps the place of a name that is there already; {lit}`lookup_put` says what is
  found under each name afterwards.
- {lit}`foldl_put_of_nodup` says that entries under distinct new names keep their order.
-/

namespace RowQuery.NamedList

variable {α : Type}

/-- Puts an entry under a name, in place of the one that is there or else at the end. -/
def put (name : String) (a : α) : List (String × α) → List (String × α)
  | [] => [(name, a)]
  | (other, b) :: rest =>
    if other = name then (name, a) :: rest else (other, b) :: put name a rest

/-- Takes the entry under a name out. -/
def erase (name : String) (list : List (String × α)) : List (String × α) :=
  list.filter fun entry => entry.1 ≠ name

/-- Builds a list from entries that are put one after the other. -/
def ofEntries (entries : List (String × α)) : List (String × α) :=
  entries.foldl (fun list (name, a) => put name a list) []

/-- The name that was put is found, and all others are found as before. -/
theorem lookup_put (name other : String) (a : α) (list : List (String × α)) :
    (put name a list).lookup other = if other = name then some a else list.lookup other := by
  have differ {k : String} (h : other ≠ k) : (other == k) = false := beq_eq_false_iff_ne.2 h
  induction list with
  | nil =>
    by_cases h : other = name
    · simp [put, h]
    · simp [put, List.lookup_cons, h, differ h]
  | cons entry rest ih =>
    obtain ⟨key, b⟩ := entry
    by_cases hkey : key = name
    · by_cases h : other = name
      · simp [put, h, hkey]
      · simp [put, List.lookup_cons, h, hkey, differ h]
    · by_cases h : other = key
      · simp [put, h, hkey]
      · simp [put, List.lookup_cons, hkey, differ h, ih]

/-- What is in a list behind a put is what was put, or was there before. -/
theorem mem_of_mem_put {name : String} {a : α} {list : List (String × α)} {entry : String × α}
    (h : entry ∈ put name a list) : entry = (name, a) ∨ entry ∈ list := by
  induction list with
  | nil => exact .inl (List.mem_singleton.1 h)
  | cons first rest ih =>
    rw [put] at h
    split at h
    · exact (List.mem_cons.1 h).imp_right (List.mem_cons_of_mem first)
    · rcases List.mem_cons.1 h with rfl | h
      · exact .inr List.mem_cons_self
      · exact (ih h).imp_right (List.mem_cons_of_mem first)

/-- Entries that are put one after the other are all that is there. -/
theorem mem_of_mem_foldl_put {list entries : List (String × α)} {entry : String × α}
    (h : entry ∈ entries.foldl (fun list (name, a) => put name a list) list) :
    entry ∈ list ∨ entry ∈ entries := by
  induction entries generalizing list with
  | nil => exact .inl h
  | cons first rest ih =>
    rcases ih h with hlist | hrest
    · rcases mem_of_mem_put hlist with rfl | hlist
      · exact .inr List.mem_cons_self
      · exact .inl hlist
    · exact .inr (List.mem_cons_of_mem first hrest)

/-- A list that is built from entries has no others. -/
theorem mem_of_mem_ofEntries {entries : List (String × α)} {entry : String × α}
    (h : entry ∈ ofEntries entries) : entry ∈ entries :=
  (mem_of_mem_foldl_put h).resolve_left List.not_mem_nil

/-- An entry under a new name is put at the end. -/
theorem put_of_notMem {name : String} {list : List (String × α)} (a : α)
    (h : name ∉ list.map Prod.fst) : put name a list = list ++ [(name, a)] := by
  induction list with
  | nil => rfl
  | cons entry rest ih =>
    rw [List.map_cons, List.mem_cons, not_or] at h
    rw [put, if_neg (Ne.symm h.1), ih h.2, List.cons_append]

/-- Entries under distinct new names are put at the end in their order. -/
theorem foldl_put_of_nodup {list entries : List (String × α)}
    (h : ((list ++ entries).map Prod.fst).Nodup) :
    entries.foldl (fun list (name, a) => put name a list) list = list ++ entries := by
  induction entries generalizing list with
  | nil => rw [List.foldl_nil, List.append_nil]
  | cons entry rest ih =>
    obtain ⟨name, a⟩ := entry
    have hsplit : list ++ (name, a) :: rest = list ++ [(name, a)] ++ rest := List.append_cons ..
    have hnew : name ∉ list.map Prod.fst := by
      rw [List.map_append, List.nodup_append] at h
      intro hmem
      exact h.2.2 name hmem name List.mem_cons_self rfl
    rw [hsplit] at h ⊢
    rw [← ih h, ← put_of_notMem a hnew]
    rfl

end RowQuery.NamedList
