import RowQuery.Proofs.Expr.Children

/-!
# Places in a tree

A node is one thing, the place where it stands another: equal nodes may stand at many places.  A
place is the way from the root to a node, as the numbers of the children on it.  Places are compared
number by number, so that a node comes before what is below it, and what is below a child comes
before what is below a later one.

Main results:

- Definition {lit}`Expr.at?`: the tree at a place, if there is one.
- Definition {lit}`Expr.places`: the places of a tree.
- Theorems {lit}`mem_places_iff` and {lit}`pairwise_places`: all places of a tree are listed, each
  once and in their order.
- Theorem {lit}`map_at?_places`: the nodes of a tree are listed in the order of their places.
- Theorem {lit}`eq_of_places_of_labels`: an expression is determined by its places and by
  what the nodes there carry.
-/

namespace RowQuery.Expr

/-! ## The tree at a place -/

/-- The way from the root to a node: the numbers of the children on it, counted from zero. -/
abbrev Place := List Nat

/-- The tree at a place, if there is one. -/
def at? (e : Expr) : Place → Option Expr
  | [] => some e
  | i :: p => e.children[i]?.bind fun c => c.at? p

/-- At the empty place is the tree itself. -/
@[simp]
theorem at?_nil (e : Expr) : e.at? [] = some e := rfl

/-- At any other place is what is at the rest of it in a child. -/
theorem at?_cons (e : Expr) (i : Nat) (p : Place) :
    e.at? (i :: p) = e.children[i]?.bind fun c => c.at? p := rfl

/-! ## All places -/

/-- The places of a tree, those of each child behind the number of the child. -/
def places (e : Expr) : List Place :=
  [] :: e.children.attach.zipIdx.flatMap fun c => (places c.1.1).map (c.2 :: ·)
termination_by e.size
decreasing_by exact size_lt_of_mem_children c.1.2

/-- The places of trees that are numbered from a start, from the places of each. -/
def placesFrom (start : Nat) (below : List (List Place)) : List Place :=
  (below.zipIdx start).flatMap fun c => c.1.map (c.2 :: ·)

/-- The first tree has the number of the start. -/
theorem placesFrom_cons (start : Nat) (first : List Place) (below : List (List Place)) :
    placesFrom start (first :: below) =
      first.map (start :: ·) ++ placesFrom (start + 1) below := by
  rw [placesFrom, List.zipIdx_cons, List.flatMap_cons, placesFrom]

/-- The places of a tree are the empty one and those below. -/
theorem places_eq (e : Expr) : e.places = [] :: placesFrom 0 (e.children.map places) := by
  rw [places, placesFrom, ← List.attach_map_subtype_val e.children, List.map_map, List.zipIdx_map,
    List.flatMap_map, List.attach_map_subtype_val]
  rfl

/-- A place below trees has the number of one of them, and a place of that one behind it. -/
theorem mem_placesFrom {start : Nat} {below : List (List Place)} {p : Place} :
    p ∈ placesFrom start below ↔
      ∃ i ps q, below[i]? = some ps ∧ q ∈ ps ∧ p = (start + i) :: q := by
  simp only [placesFrom, List.mem_flatMap, List.mem_map, List.mem_zipIdx_iff_le_and_getElem?_sub]
  constructor
  · rintro ⟨⟨ps, n⟩, ⟨hle, hget⟩, q, hq, rfl⟩
    exact ⟨n - start, ps, q, hget, hq, by rw [Nat.add_sub_cancel' hle]⟩
  · rintro ⟨i, ps, q, hget, hq, rfl⟩
    refine ⟨(ps, start + i), ⟨Nat.le_add_right start i, ?_⟩, q, hq, rfl⟩
    rwa [Nat.add_sub_cancel_left]

/-- A place is listed if there is a tree at it. -/
theorem mem_places_iff {e : Expr} {p : Place} : p ∈ e.places ↔ (e.at? p).isSome = true := by
  induction p generalizing e with
  | nil => simp [places_eq]
  | cons i p ih =>
    rw [places_eq, at?_cons, List.mem_cons, mem_placesFrom]
    simp only [reduceCtorEq, false_or, Nat.zero_add, List.cons.injEq, List.getElem?_map]
    cases hget : e.children[i]? with
    | none => simp [hget]
    | some c =>
      rw [Option.bind_some, ← ih]
      constructor
      · rintro ⟨_, ps, _, hps, hq, rfl, rfl⟩
        rw [hget] at hps
        cases hps
        exact hq
      · exact fun hp => ⟨i, c.places, p, by rw [hget, Option.map_some], hp, rfl, rfl⟩

/-- Places below trees are in their order if those of each tree are. -/
theorem pairwise_placesFrom {below : List (List Place)}
    (h : ∀ ps ∈ below, ps.Pairwise (· < ·)) (start : Nat) :
    (placesFrom start below).Pairwise (· < ·) := by
  induction below generalizing start with
  | nil => exact List.Pairwise.nil
  | cons first below ih =>
    rw [placesFrom_cons, List.pairwise_append]
    refine ⟨?_, ih (fun ps hps => h ps (List.mem_cons_of_mem first hps)) (start + 1), ?_⟩
    · refine (h first List.mem_cons_self).map _ fun p q hlt => ?_
      exact List.cons_lt_cons_iff.2 (.inr ⟨rfl, hlt⟩)
    · intro p hp q hq
      obtain ⟨p, -, rfl⟩ := List.mem_map.1 hp
      obtain ⟨i, -, q, -, -, rfl⟩ := mem_placesFrom.1 hq
      exact List.cons_lt_cons_iff.2 (.inl (by omega))

/-- Places are listed in their order, so that none is listed twice. -/
theorem pairwise_places (e : Expr) : e.places.Pairwise (· < ·) := by
  induction e using childrenInduction with
  | node e ih =>
    rw [places_eq, List.pairwise_cons]
    refine ⟨fun p hp => ?_, pairwise_placesFrom (List.forall_mem_map.2 ih) 0⟩
    obtain ⟨i, -, q, -, -, rfl⟩ := mem_placesFrom.1 hp
    exact List.nil_lt_cons _ _

/-- The nodes of a tree are listed in the order of their places. -/
theorem map_at?_places (e : Expr) : e.places.map e.at? = e.nodes.map some := by
  induction e using childrenInduction with
  | node e ih =>
    have hbelow : ∀ c ∈ e.children.zipIdx,
        (c.1.places.map (c.2 :: ·)).map e.at? = c.1.nodes.map some := by
      intro c hc
      have hget : e.children[c.2]? = some c.1 := List.mem_zipIdx_iff_getElem?.1 hc
      rw [List.map_map, ← ih c.1 (List.mem_of_getElem? hget)]
      refine List.map_congr_left fun p _ => ?_
      rw [Function.comp_apply, at?_cons, hget, Option.bind_some]
    rw [places_eq, nodes_eq, nodesOfList_eq_flatMap, placesFrom, List.map_cons, List.map_cons,
      List.map_flatMap, List.map_flatMap, List.zipIdx_map, List.flatMap_map, at?_nil]
    congr 1
    calc
      _ = e.children.zipIdx.flatMap fun c => c.1.nodes.map some := List.flatMap_congr hbelow
      _ = (e.children.zipIdx.map Prod.fst).flatMap fun c => c.nodes.map some := by
        rw [List.flatMap_map]
      _ = _ := by rw [List.zipIdx_map_fst]

/-! ## What nodes carry -/

/-- What a node carries, apart from what is below it. -/
inductive Label where
  | row (position : Nat)
  | value (v : Value)
  | captured (name : String) (v : Value)
  | field (name : String) (ty : Ty)
  | not
  | cast (ty : Ty)
  | call (targeted : Bool) (method : String)
  | binary (op : BinaryOp)

/-- What the node carries; of a call also whether it has a target. -/
def label : Expr → Label
  | row position => .row position
  | value v => .value v
  | captured name v => .captured name v
  | field _ name ty => .field name ty
  | not _ => .not
  | cast _ ty => .cast ty
  | call target method _ => .call target.isSome method
  | binary op _ _ => .binary op

/-- What the nodes of a tree carry, in their order. -/
def labels (e : Expr) : List Label := e.nodes.map label

/-- The labels of a tree are that of the node and those of its children. -/
theorem labels_eq (e : Expr) : e.labels = e.label :: e.children.flatMap labels := by
  rw [labels, nodes_eq, nodesOfList_eq_flatMap, List.map_cons, List.map_flatMap]
  rfl

/-- The node that carries this over these children.  A node cannot have just any number of them, and
with another number there is none. -/
def Label.over : Label → List Expr → Option Expr
  | row position, [] => some (.row position)
  | value v, [] => some (.value v)
  | captured name v, [] => some (.captured name v)
  | field name ty, [base] => some (.field base name ty)
  | not, [e] => some (.not e)
  | cast ty, [e] => some (.cast e ty)
  | call false method, args => some (.call none method args)
  | call true method, target :: args => some (.call (some target) method args)
  | binary op, [lhs, rhs] => some (.binary op lhs rhs)
  | _, _ => none

/-- A node is the one that carries what it does over its children. -/
theorem over_label (e : Expr) : e.label.over e.children = some e := by
  rcases e with _ | _ | _ | _ | _ | _ | ⟨_ | _, _, _⟩ | _ <;> rfl

/-- A tree is determined by what is carried at each place. -/
theorem eq_of_label_at? {e e' : Expr}
    (h : ∀ p, (e'.at? p).map label = (e.at? p).map label) : e' = e := by
  induction e using childrenInduction generalizing e' with
  | node e ih =>
    have hlabel : e'.label = e.label := Option.some.inj (h [])
    have hchildren : e'.children = e.children := by
      refine List.ext_getElem? fun i => ?_
      have hi (p : Place) := h (i :: p)
      simp only [at?_cons] at hi
      cases hc' : e'.children[i]? with
      | none =>
        cases hc : e.children[i]? with
        | none => rfl
        | some c => simpa [hc', hc] using hi []
      | some c' =>
        cases hc : e.children[i]? with
        | none => simpa [hc', hc] using hi []
        | some c =>
          have hsame : c' = c := ih c (List.mem_of_getElem? hc) fun p => by
            simpa [hc', hc] using hi p
          rw [hsame]
    have hself := over_label e'
    rw [hlabel, hchildren, over_label] at hself
    exact (Option.some.inj hself).symm

/-- What is carried at the places of a tree is what its nodes carry. -/
theorem map_label_at?_places (e : Expr) :
    e.places.map (fun p => (e.at? p).map label) = e.labels.map some := by
  calc
    _ = (e.places.map e.at?).map (Option.map label) := by rw [List.map_map]; rfl
    _ = e.labels.map some := by rw [map_at?_places, labels, List.map_map, List.map_map]; rfl

/-- A tree is determined by its places and by what is carried there. -/
theorem eq_of_places_of_labels {e e' : Expr} (hplaces : e'.places = e.places)
    (hlabels : e'.labels = e.labels) : e' = e := by
  have hsame := map_label_at?_places e'
  rw [hplaces, hlabels, ← map_label_at?_places e] at hsame
  refine eq_of_label_at? fun p => ?_
  by_cases hp : p ∈ e.places
  · exact List.map_inj_left.1 hsame p hp
  · have hnone : e.at? p = none := by rwa [mem_places_iff, Option.not_isSome_iff_eq_none] at hp
    have hnone' : e'.at? p = none := by
      rwa [← hplaces, mem_places_iff, Option.not_isSome_iff_eq_none] at hp
    rw [hnone, hnone']

end RowQuery.Expr
