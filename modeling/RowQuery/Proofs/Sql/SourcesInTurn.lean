import RowQuery.Proofs.Sql.DrawnValues

/-!
# Sources used in turn

A text names its placeholders in some order, and several sources have values for them.  Each
source is used from its first value on, by the names that it mentions first of all sources,
in the order in which the text brings them in.  So what the names of one source get can be
read off that source alone.

Main results:

- Definition {lit}`firstMention`: the source that gives a name its value.
- Theorem {lit}`given_eq`: what the names of one source get, read in the order of the text.
- Theorem {lit}`get?_bind_congr`: what a name gets depends on the texts of all sources, but only on
  the values of the one that mentions it first.
- Theorem {lit}`bindsInTurn`: the contract of binding, for every text and all sources.
-/

namespace RowQuery.Sql

/-! ## Sources as queues -/

/-- The place of the first source whose text mentions a name, behind the
last source if none does. -/
def firstMention (sources : List ParameterSource) (name : String) : Nat :=
  sources.findIdx fun s => (placeholders s.text).contains name

theorem owner_queues (sources : List ParameterSource) :
    owner (sources.map ParameterSource.queue) = firstMention sources := by
  funext name
  rw [owner, List.findIdx_map]
  rfl

theorem valuesAt_queues (sources : List ParameterSource) (i : Nat) :
    valuesAt (sources.map ParameterSource.queue) i =
      (sources[i]?.map ParameterSource.values).getD [] := by
  rw [valuesAt, List.getElem?_map, Option.map_map]
  rfl

/-- A name that no source mentions stands behind the last one. -/
theorem firstMention_eq_length {sources : List ParameterSource} {name : String}
    (h : ∀ s ∈ sources, name ∉ placeholders s.text) :
    firstMention sources name = sources.length := by
  rw [firstMention, List.findIdx_eq_length]
  simpa using h

/-- Which source mentions a name first can be read off the texts. -/
theorem firstMention_congr {sources others : List ParameterSource}
    (h : others.map ParameterSource.text = sources.map ParameterSource.text) :
    firstMention others = firstMention sources := by
  have hread (l : List ParameterSource) (name : String) : firstMention l name =
      (l.map ParameterSource.text).findIdx fun text => (placeholders text).contains name := by
    rw [List.findIdx_map]
    rfl
  funext name
  rw [hread, hread, h]

/-! ## What the names of one source get -/

/-- The values that the placeholders of a text get whose first mention is in one source, in the
order in which the text brings them in. -/
def given (sql : String) (sources : List ParameterSource) (i : Nat) : List Value :=
  ((bind sql sources Command.empty).parameters.filter (firstMention sources ·.1 == i)).map Prod.snd

/-- Distinct names that get values by their places get them in order, and nulls behind the last. -/
theorem map_getD_idxOf {names : List String} (h : names.Nodup) (values : List Value) :
    names.map (fun name => values.getD (names.idxOf name) .null) =
      values.take names.length ++ List.replicate (names.length - values.length) .null := by
  refine List.ext_getElem ?_ fun k hk hk' => ?_
  · rw [List.length_map, List.length_append, List.length_take, List.length_replicate]
    omega
  · have hlt : k < names.length := by simpa using hk
    rw [List.getElem_map, h.idxOf_getElem k hlt, List.getD_eq_getElem?_getD]
    by_cases hvalues : k < values.length
    · have htake : k < (values.take names.length).length := by
        rw [List.length_take]
        omega
      rw [List.getElem_append_left htake, List.getElem_take, List.getElem?_eq_getElem hvalues,
        Option.getD_some]
    · have hle : values.length ≤ k := Nat.le_of_not_lt hvalues
      have htake : (values.take names.length).length ≤ k :=
        Nat.le_trans (List.length_take_le' _ _) hle
      rw [List.getElem_append_right htake, List.getElem_replicate, List.getElem?_eq_none hle,
        Option.getD_none]

/-- The parameters whose first mention is in one source are those of its names. -/
theorem filter_parameters (sql : String) (sources : List ParameterSource) (i : Nat) :
    (bind sql sources Command.empty).parameters.filter (firstMention sources ·.1 == i) =
      (ownedBy (sources.map ParameterSource.queue) i (placeholders sql).eraseDups).map fun name =>
        (name, drawn (sources.map ParameterSource.queue) (placeholders sql).eraseDups name) := by
  have hparameters := parameters_bind sql sources ""
  rw [Command.empty, hparameters, bindings_eq, List.filter_map, ownedBy, owner_queues]
  rfl

/-- The names of one source get its values in order, and nulls behind the last of them. -/
theorem given_eq {sources : List ParameterSource} {i : Nat} {s : ParameterSource}
    (h : sources[i]? = some s) (sql : String) :
    given sql sources i = s.values.take (given sql sources i).length ++
      List.replicate ((given sql sources i).length - s.values.length) .null := by
  have hnodup : (ownedBy (sources.map ParameterSource.queue) i
      (placeholders sql).eraseDups).Nodup := (nodup_eraseDups _).filter _
  have hvalues : valuesAt (sources.map ParameterSource.queue) i = s.values := by
    rw [valuesAt_queues, h]
    rfl
  have hgiven : given sql sources i =
      (ownedBy (sources.map ParameterSource.queue) i (placeholders sql).eraseDups).map fun name =>
        s.values.getD ((ownedBy (sources.map ParameterSource.queue) i
          (placeholders sql).eraseDups).idxOf name) .null := by
    rw [given, filter_parameters, List.map_map]
    refine List.map_congr_left fun name hname => ?_
    have howner : owner (sources.map ParameterSource.queue) name = i := by
      simpa using (List.mem_filter.1 hname).2
    rw [Function.comp_apply, drawn, howner, hvalues]
  rw [hgiven, List.length_map]
  exact map_getD_idxOf hnodup s.values

/-! ## What a name does not depend on -/

/-- What a name gets depends on the texts of all sources and on the values of the source
that mentions it first. -/
theorem get?_bind_congr {sources others : List ParameterSource} {name : String}
    (htexts : others.map ParameterSource.text = sources.map ParameterSource.text)
    (hvalues : others[firstMention sources name]? = sources[firstMention sources name]?)
    (sql : String) :
    (bind sql others Command.empty).get? name = (bind sql sources Command.empty).get? name := by
  have hparameters (l : List ParameterSource) := parameters_bind sql l ""
  have howner :
      owner (others.map ParameterSource.queue) = owner (sources.map ParameterSource.queue) := by
    rw [owner_queues, owner_queues, firstMention_congr htexts]
  have hdrawn (names : List String) : drawn (others.map ParameterSource.queue) names name =
      drawn (sources.map ParameterSource.queue) names name := by
    rw [drawn, drawn, ownedBy, ownedBy, howner, valuesAt_queues, valuesAt_queues, owner_queues,
      hvalues]
  rw [Command.get?, Command.get?, Command.empty, hparameters, hparameters, lookup_bindings,
    lookup_bindings, hdrawn]

/-! ## The whole -/

/-- What binding a text keeps to. -/
structure BindsInTurn (sql : String) (sources : List ParameterSource) : Prop where
  /-- There is one parameter for each distinct placeholder, in the order of first occurrence. -/
  names : (bind sql sources Command.empty).parameters.map Prod.fst = (placeholders sql).eraseDups
  /-- What the names of a source get, read in order, is the first values of the source, and
  nulls once it has no more. -/
  inTurn : ∀ (i : Nat) (s : ParameterSource), sources[i]? = some s →
    given sql sources i = s.values.take (given sql sources i).length ++
      List.replicate ((given sql sources i).length - s.values.length) .null
  /-- A placeholder that no source mentions gets null. -/
  unowned : ∀ name ∈ placeholders sql, (∀ s ∈ sources, name ∉ placeholders s.text) →
    (bind sql sources Command.empty).get? name = some .null
  /-- Other values in one source do not change what the names of another source get. -/
  apart : ∀ (i : Nat) (others : List ParameterSource),
    others.map ParameterSource.text = sources.map ParameterSource.text →
    (∀ j, j ≠ i → others[j]? = sources[j]?) → ∀ name, firstMention sources name ≠ i →
    (bind sql others Command.empty).get? name = (bind sql sources Command.empty).get? name

/-- Binding uses each source in turn and every name once. -/
theorem bindsInTurn (sql : String) (sources : List ParameterSource) : BindsInTurn sql sources where
  names := by
    have hparameters := parameters_bind sql sources ""
    rw [Command.empty, hparameters, bindings_eq, List.map_map, Function.comp_def, List.map_id']
  inTurn _ _ h := given_eq h sql
  unowned name hname hmentions := by
    have hparameters := parameters_bind sql sources ""
    have hnone : sources[firstMention sources name]? = none := by
      rw [firstMention_eq_length hmentions, List.getElem?_eq_none (Nat.le_refl _)]
    rw [Command.get?, Command.empty, hparameters, lookup_bindings, if_pos hname, drawn,
      owner_queues, valuesAt_queues, hnone]
    rfl
  apart i others htexts hvalues name hname :=
    get?_bind_congr htexts (hvalues _ hname) sql

/-- Two sources share a name, and the second one runs out of values. -/
example : (bind "@a @c @b @c @d"
    [⟨"@a @b", [.int32 1, .int32 2, .int32 3]⟩, ⟨"@b @c @d", [.int32 4]⟩]
    Command.empty).parameters =
      [("@a", .int32 1), ("@c", .int32 4), ("@b", .int32 2), ("@d", .null)] := by
  cbv

end RowQuery.Sql
