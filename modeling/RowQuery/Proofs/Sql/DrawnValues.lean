import RowQuery.Proofs.Sql.Binding

/-!
# Values drawn from sources

A statement is read once, and each name that comes in for the first time draws a value from
the first source that owns it.  So what a name gets depends on two things only: which source
owns it, and how many other names of that source came in before.

Main results:

- Theorem {lit}`draw_eq`: to draw a value leaves all sources but one as they are.
- Theorem {lit}`bindFrom_eq`: the values that a list of names draws, in one equation.
- Theorem {lit}`get?_bind`: the value of each name after a statement is bound.
- Theorem {lit}`drawn_single`: the case of a single source.
-/

namespace RowQuery.Sql

/-! ## Owners -/

/-- The place of the first queue that owns a name, behind the last queue if none does. -/
def owner (queues : List Queue) (name : String) : Nat :=
  queues.findIdx (·.names.contains name)

/-- The names among some that a queue owns. -/
def ownedBy (queues : List Queue) (i : Nat) (names : List String) : List String :=
  names.filter (owner queues · == i)

/-- The values of the queue at a place; none if there is no queue. -/
def valuesAt (queues : List Queue) (i : Nat) : List Value :=
  (queues[i]?.map Queue.values).getD []

/-- A name in front belongs to its owner. -/
theorem ownedBy_cons_of_eq {queues : List Queue} {i : Nat} {name : String} {names : List String}
    (h : owner queues name = i) :
    ownedBy queues i (name :: names) = name :: ownedBy queues i names :=
  List.filter_cons_of_pos (by simpa using h)

/-- A name in front belongs to no other queue. -/
theorem ownedBy_cons_of_ne {queues : List Queue} {i : Nat} {name : String} {names : List String}
    (h : owner queues name ≠ i) :
    ownedBy queues i (name :: names) = ownedBy queues i names :=
  List.filter_cons_of_neg (by simpa using h)

/-- The value that a name gets among distinct names: the value of its owner at the place that
the name has among the names of that owner. -/
def drawn (queues : List Queue) (names : List String) (name : String) : Value :=
  (valuesAt queues (owner queues name)).getD
    ((ownedBy queues (owner queues name) names).idxOf name) .null

/-- A queue without its first value. -/
def Queue.tail (q : Queue) : Queue := { q with values := q.values.tail }

/-- To draw a value takes the first one of the owner, and leaves the other queues alone. -/
theorem draw_eq (name : String) (queues : List Queue) :
    draw name queues =
      ((valuesAt queues (owner queues name)).headD .null,
        queues.modify (owner queues name) Queue.tail) := by
  induction queues with
  | nil => rfl
  | cons q rest ih =>
    by_cases howned : q.names.contains name = true
    · have hfirst : owner (q :: rest) name = 0 := by
        rw [owner, List.findIdx_cons, howned, cond_true]
      rw [draw, if_pos howned, hfirst]
      rfl
    · have hlater : owner (q :: rest) name = owner rest name + 1 := by
        rw [owner, List.findIdx_cons, Bool.eq_false_iff.2 howned, cond_false, owner]
      rw [draw, if_neg howned, hlater, ih]
      rfl

/-- The owner of a name does not depend on the values that are left. -/
theorem owner_modify_tail (queues : List Queue) (i : Nat) (name : String) :
    owner (queues.modify i Queue.tail) name = owner queues name := by
  induction queues generalizing i with
  | nil => rw [List.modify_nil]
  | cons q rest ih =>
    cases i with
    | zero => rfl
    | succ i =>
      have hrest := ih i
      rw [owner, owner] at hrest
      rw [List.modify_succ_cons, owner, owner, List.findIdx_cons, List.findIdx_cons, hrest]

/-- A queue that lost its first value has the others. -/
theorem valuesAt_modify_tail (queues : List Queue) (i j : Nat) :
    valuesAt (queues.modify i Queue.tail) j =
      if i = j then (valuesAt queues j).tail else valuesAt queues j := by
  rw [valuesAt, valuesAt, List.getElem?_modify]
  cases queues[j]? with
  | none => split <;> rfl
  | some q => split <;> rfl

/-! ## Names that come in one after the other -/

/-- A list without the names that came in before keeps its order without them. -/
theorem removeAll_cons_eq_filter (names bound : List String) (name : String) :
    names.removeAll (name :: bound) = (names.removeAll bound).filter (!· == name) := by
  simp only [List.removeAll, List.filter_filter]
  refine List.filter_congr fun other _ => ?_
  rw [Bool.eq_iff_iff]
  simp

/-- Names that came in once are distinct. -/
theorem nodup_eraseDups (names : List String) : names.eraseDups.Nodup := by
  match names with
  | [] => exact List.nodup_nil
  | name :: rest =>
    rw [List.eraseDups_cons, List.nodup_cons, List.mem_eraseDups]
    refine ⟨?_, nodup_eraseDups _⟩
    simp
termination_by names.length
decreasing_by exact Nat.lt_succ_of_le (List.length_filter_le _ _)

/-- To look for some names only leaves them in the order in which they came in. -/
theorem filter_eraseDups (p : String → Bool) (names : List String) :
    names.eraseDups.filter p = (names.filter p).eraseDups := by
  match names with
  | [] => rfl
  | name :: rest =>
    have hrest := filter_eraseDups p (rest.filter (!· == name))
    rw [List.eraseDups_cons]
    by_cases hp : p name = true
    · have hcomm : (rest.filter (!· == name)).filter p = (rest.filter p).filter (!· == name) := by
        rw [List.filter_filter, List.filter_filter]
        exact List.filter_congr fun _ _ => Bool.and_comm _ _
      rw [List.filter_cons_of_pos hp, List.filter_cons_of_pos hp, List.eraseDups_cons, hrest, hcomm]
    · have hdrop : (rest.filter (!· == name)).filter p = rest.filter p := by
        rw [List.filter_filter]
        refine List.filter_congr fun other _ => ?_
        by_cases hother : other = name
        · simp [hother, hp]
        · simp [hother]
      rw [List.filter_cons_of_neg hp, List.filter_cons_of_neg hp, hrest, hdrop]
termination_by names.length
decreasing_by exact Nat.lt_succ_of_le (List.length_filter_le _ _)

/-- What the first of some names draws, and what is left to the others. -/
theorem drawn_modify_tail {queues : List Queue} {name other : String} {names : List String}
    (hne : other ≠ name) :
    drawn (queues.modify (owner queues name) Queue.tail) names other =
      drawn queues (name :: names) other := by
  have howned : ownedBy (queues.modify (owner queues name) Queue.tail) (owner queues other) names =
      ownedBy queues (owner queues other) names := by
    simp only [ownedBy, owner_modify_tail]
  rw [drawn, drawn, owner_modify_tail, valuesAt_modify_tail, howned]
  by_cases hsame : owner queues name = owner queues other
  · have hplace : (name :: ownedBy queues (owner queues other) names).idxOf other =
        (ownedBy queues (owner queues other) names).idxOf other + 1 := by
      rw [List.idxOf_cons, beq_eq_false_iff_ne.2 hne.symm, cond_false]
    rw [if_pos hsame, ownedBy_cons_of_eq hsame, hplace]
    cases valuesAt queues (owner queues other) <;> simp
  · rw [if_neg hsame, ownedBy_cons_of_ne hsame]

/-- Each name that was not bound before gets the value that it draws among all of those. -/
theorem bindFrom_eq (bound : List String) (queues : List Queue) (names : List String) :
    bindFrom bound queues names =
      (names.removeAll bound).eraseDups.map fun name =>
        (name, drawn queues (names.removeAll bound).eraseDups name) := by
  induction names generalizing bound queues with
  | nil => rfl
  | cons name rest ih =>
    by_cases hbound : bound.contains name = true
    · rw [bindFrom, if_pos hbound, ih, List.cons_removeAll, if_neg (by rw [hbound]; decide)]
    · have hrest : ((name :: rest).removeAll bound).eraseDups =
          name :: (rest.removeAll (name :: bound)).eraseDups := by
        rw [List.cons_removeAll, if_pos (by simpa using hbound), List.eraseDups_cons,
          removeAll_cons_eq_filter]
      have hnew : name ∉ (rest.removeAll (name :: bound)).eraseDups := by
        rw [List.mem_eraseDups, removeAll_cons_eq_filter]
        simp
      have hfirst : (valuesAt queues (owner queues name)).headD .null =
          drawn queues (name :: (rest.removeAll (name :: bound)).eraseDups) name := by
        rw [drawn, ownedBy_cons_of_eq rfl, List.idxOf_cons_self]
        cases valuesAt queues (owner queues name) <;> rfl
      have hothers : ∀ other ∈ (rest.removeAll (name :: bound)).eraseDups,
          drawn (queues.modify (owner queues name) Queue.tail)
              (rest.removeAll (name :: bound)).eraseDups other =
            drawn queues (name :: (rest.removeAll (name :: bound)).eraseDups) other :=
        fun other hother => drawn_modify_tail fun heq => hnew (heq ▸ hother)
      rw [bindFrom, if_neg hbound, draw_eq, hrest, List.map_cons, ← hfirst]
      refine congrArg (_ :: ·) ?_
      rw [ih]
      exact List.map_congr_left fun other hother => by rw [hothers other hother]

/-- The values of the placeholders of a statement, in the order of first occurrence. -/
theorem bindings_eq (sql : String) (sources : List ParameterSource) :
    bindings sql sources =
      (placeholders sql).eraseDups.map fun name =>
        (name, drawn (sources.map ParameterSource.queue) (placeholders sql).eraseDups name) := by
  have hall : (placeholders sql).removeAll [] = placeholders sql := by
    simp [List.removeAll]
  rw [bindings, bindFrom_eq, hall]

/-! ## What a name gets -/

/-- In a list of names with a value each, a name has its value. -/
theorem lookup_map_mk (f : String → Value) (names : List String) (name : String) :
    (names.map fun n => (n, f n)).lookup name = if name ∈ names then some (f name) else none := by
  induction names with
  | nil => rfl
  | cons first rest ih =>
    rw [List.map_cons, List.lookup_cons, ih]
    by_cases h : name = first
    · simp [h]
    · simp [h, beq_eq_false_iff_ne.2 h]

/-- A command that was empty holds the bindings of a text as its parameters. -/
theorem parameters_bind (sql : String) (sources : List ParameterSource) (text : String) :
    (bind sql sources ⟨text, []⟩).parameters = bindings sql sources := by
  have hnodup : ((([] : List (String × Value)) ++ bindings sql sources).map Prod.fst).Nodup := by
    rw [List.nil_append, bindings_eq, List.map_map, Function.comp_def, List.map_id']
    exact nodup_eraseDups _
  rw [bind, foldl_add]
  exact NamedList.foldl_put_of_nodup hnodup

/-- A name gets what it draws if the text has it as a placeholder, and else nothing. -/
theorem lookup_bindings (sql : String) (sources : List ParameterSource) (name : String) :
    (bindings sql sources).lookup name =
      if name ∈ placeholders sql then
        some (drawn (sources.map ParameterSource.queue) (placeholders sql).eraseDups name)
      else none := by
  rw [bindings_eq, lookup_map_mk]
  simp only [List.mem_eraseDups]

/-- A name gets what it draws if the statement has it as a placeholder, and else nothing. -/
theorem get?_bind (s : Statement) (name : String) :
    (s.bind Command.empty).get? name =
      if name ∈ placeholders s.text then
        some (drawn (s.sources.map ParameterSource.queue) (placeholders s.text).eraseDups name)
      else none := by
  rw [Command.get?, Statement.bind, ← lookup_bindings, ← parameters_bind _ _ s.text]
  rfl

/-- With a single source the names that it owns get its values in turn, and the others get
null. -/
theorem drawn_single (q : Queue) (names : List String) (name : String) :
    drawn [q] names name =
      if q.names.contains name then
        q.values.getD ((names.filter (q.names.contains ·)).idxOf name) .null
      else .null := by
  have howner (n : String) : owner [q] n = if q.names.contains n then 0 else 1 := by
    rw [owner, List.findIdx_cons]
    cases q.names.contains n <;> rfl
  have howned : ownedBy [q] 0 names = names.filter (q.names.contains ·) := by
    refine List.filter_congr fun n _ => ?_
    rw [howner]
    cases q.names.contains n <;> rfl
  rw [drawn, howner]
  split
  · rw [howned]
    rfl
  · rfl

end RowQuery.Sql
