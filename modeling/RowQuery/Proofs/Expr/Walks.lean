import RowQuery.Expr.Traversal
import RowQuery.Proofs.Expr.LargestSubtrees
import RowQuery.Proofs.Expr.Places
import RowQuery.Proofs.Expr.RowDependence

/-!
# All walks see the same tree

Trees are walked over to watch them, to edit them, to look for the row and to mark what can be
folded.  Each of these walks is a recursion of its own.  This module compares them with the list of
the nodes: all of them come to each node once and in the same order.

Main results:

- Theorem {lit}`Expr.forEachM_eq`: what is done at every node is done along the list of the nodes.
- Theorem {lit}`Expr.editM_bind`: an edited tree has the places of the tree, and at each place what
  the editor gives for the node there, which it comes to in the order of the nodes.
- Theorem {lit}`Expr.mapM_atNode_bind`: an editor of positions, names and values changes these once
  each, and nothing else.
- Theorem {lit}`Expr.firstPass_eq`: the table of the first pass, written index by index.
- Theorem {lit}`Expr.walksAlike`: all of it together.
-/

namespace RowQuery

open RowQuery.Expr

variable {m : Type → Type} [Monad m]

/-! ## Editors -/

/-- What an editor makes of what a node carries. -/
def Editor.relabel (r : Editor m) : Label → m Label
  | .row position => return .row (← r.position position)
  | .value v => return .value (← r.value v)
  | .captured name v => do
    let name ← r.capturedName name
    return .captured name (← r.value v)
  | .field name ty => do
    let name ← r.fieldName name
    return .field name (← r.fieldTy ty)
  | .not => return .not
  | .cast ty => return .cast (← r.castTy ty)
  | .call targeted method => return .call targeted (← r.method method)
  | .binary op => return .binary (← r.operator op)

/-- All that an editor does at a node. -/
def Editor.atNode (r : Editor m) (node : Expr) : m Label := do
  r.enter node
  r.relabel node.label

/-- Something that is carried by a node and is neither a type nor a method nor an operator. -/
inductive Payload where
  | position (n : Nat)
  | fieldName (name : String)
  | capturedName (name : String)
  | value (v : Value)

/-- The positions, names and values that a node carries. -/
def Expr.Label.payloads : Label → List Payload
  | row n => [.position n]
  | value v => [.value v]
  | captured name v => [.capturedName name, .value v]
  | field name _ => [.fieldName name]
  | not | cast _ | call _ _ | binary _ => []

/-- What a node carries, with its positions, names and values left blank. -/
def Expr.Label.blank : Label → Label
  | row _ => row 0
  | value _ => value .null
  | captured _ _ => captured "" .null
  | field _ ty => field "" ty
  | l => l

/-- What an editor makes of a position, a name or a value. -/
def Editor.rewrite (r : Editor m) : Payload → m Payload
  | .position n => return .position (← r.position n)
  | .fieldName name => return .fieldName (← r.fieldName name)
  | .capturedName name => return .capturedName (← r.capturedName name)
  | .value v => return .value (← r.value v)

/-- An editor comes to a node and rewrites its positions, names and values. -/
def Editor.rewriteHere (r : Editor m) (node : Expr) : m (List Payload) := do
  r.enter node
  node.label.payloads.mapM r.rewrite

/-- An editor that leaves types, methods and operators as they are. -/
structure Editor.KeepsRest (r : Editor m) : Prop where
  fieldTy : ∀ ty, r.fieldTy ty = pure ty
  castTy : ∀ ty, r.castTy ty = pure ty
  method : ∀ name, r.method name = pure name
  operator : ∀ op, r.operator op = pure op

/-- The editor that marks what it meets leaves the rest as it is. -/
theorem Editor.keepsRest_marking : Editor.marking.KeepsRest :=
  ⟨fun _ => rfl, fun _ => rfl, fun _ => rfl, fun _ => rfl⟩

namespace Expr

variable [LawfulMonad m]

/-! ## Watching -/

/-- The walk over a tree treats all nodes alike. -/
theorem watchM_eq (around : Expr → m Unit → m Unit) (e : Expr) :
    e.watchM around = around e (watchListM around e.children) := by
  rcases e with _ | _ | _ | _ | _ | _ | ⟨_ | _, _, _⟩ | _ <;>
    simp [watchM, watchListM, children]

/-- The walk over several trees goes along their nodes if the walk over each of them does. -/
theorem watchListM_eq_forM {around : Expr → m Unit → m Unit} {f : Expr → m Unit} {es : List Expr}
    (h : ∀ c ∈ es, c.watchM around = forM c.nodes f) :
    watchListM around es = forM (nodesOfList es) f := by
  induction es with
  | nil => rfl
  | cons c rest ih =>
    rw [watchListM, nodesOfList, List.forM_append, h c List.mem_cons_self,
      ih fun d hd => h d (List.mem_cons_of_mem c hd)]

/-- What is done at every node is done along the list of the nodes. -/
theorem forEachM_eq (f : Expr → m Unit) (e : Expr) : e.forEachM f = forM e.nodes f := by
  unfold forEachM
  induction e using childrenInduction with
  | node e ih => rw [watchM_eq, watchListM_eq_forM ih, nodes_eq, List.forM_cons]

/-- What is told along a list of nodes stands behind what was told before. -/
theorem run_forM_eventsHere (nodes : List Expr) (before : List Event) :
    ((forM nodes fun node => modify (· ++ node.eventsHere) :
      StateM (List Event) Unit).run before).2 = before ++ nodes.flatMap eventsHere := by
  induction nodes generalizing before with
  | nil => exact (List.append_nil before).symm
  | cons node nodes ih =>
    rw [List.forM_cons, List.flatMap_cons, ← List.append_assoc]
    exact ih _

/-- The events of a walk are those of each node in turn. -/
theorem events_eq (e : Expr) : e.events = e.nodes.flatMap eventsHere := by
  rw [events, forEachM_eq, run_forM_eventsHere, List.nil_append]

/-! ## Editing -/

/-- Whatever comes next, an editor has done on a tree what it does at the nodes, in their
order.  The edited tree has the places of the tree, and its labels are what the editor
has given at the nodes. -/
def EditsInOrder (r : Editor m) (e : Expr) : Prop :=
  ∀ {β : Type} (next : List Place → List Label → m β),
    (e.editM r >>= fun e' => next e'.places e'.labels) =
      e.nodes.mapM r.atNode >>= fun ls => next e.places ls

/-- Several trees are edited in the order of their nodes if each of them is. -/
theorem editListM_bind {r : Editor m} {es : List Expr} (h : ∀ c ∈ es, EditsInOrder r c)
    {β : Type} (next : List (List Place) → List Label → m β) :
    (editListM r es >>= fun es' => next (es'.map places) (es'.flatMap labels)) =
      (nodesOfList es).mapM r.atNode >>= fun ls => next (es.map places) ls := by
  induction es generalizing β with
  | nil => simp [editListM, nodesOfList]
  | cons c rest ih =>
    have hrest (c' : Expr) := ih (fun d hd => h d (List.mem_cons_of_mem c hd))
      fun pss ls => next (c'.places :: pss) (c'.labels ++ ls)
    have hc := h c List.mem_cons_self fun ps ls =>
      (nodesOfList rest).mapM r.atNode >>= fun ls' => next (ps :: rest.map places) (ls ++ ls')
    simp only [editListM, nodesOfList, List.mapM_append, bind_assoc, pure_bind, List.map_cons,
      List.flatMap_cons, hrest, hc]

/-- An editor treats all nodes alike: first what the node carries, then the children. -/
theorem editM_bind_children (r : Editor m) (e : Expr) {β : Type}
    (next : Label → List Expr → m β) :
    (e.editM r >>= fun e' => next e'.label e'.children) =
      r.atNode e >>= fun l => editListM r e.children >>= fun es' => next l es' := by
  rcases e with _ | _ | _ | _ | _ | _ | ⟨_ | _, _, _⟩ | _ <;>
    simp [editM, editListM, Editor.atNode, Editor.relabel, label, children]

/-- Every tree is edited in the order of its nodes. -/
theorem editM_bind (r : Editor m) (e : Expr) : EditsInOrder r e := by
  induction e using childrenInduction with
  | node e ih =>
    intro β next
    calc
      (e.editM r >>= fun e' => next e'.places e'.labels)
      _ = e.editM r >>= fun e' => next ([] :: placesFrom 0 (e'.children.map places))
          (e'.label :: e'.children.flatMap labels) := by
        simp only [← places_eq, ← labels_eq]
      _ = r.atNode e >>= fun l => editListM r e.children >>= fun es' =>
          next ([] :: placesFrom 0 (es'.map places)) (l :: es'.flatMap labels) :=
        editM_bind_children r e fun l es' =>
          next ([] :: placesFrom 0 (es'.map places)) (l :: es'.flatMap labels)
      _ = r.atNode e >>= fun l => (nodesOfList e.children).mapM r.atNode >>= fun ls =>
          next ([] :: placesFrom 0 (e.children.map places)) (l :: ls) :=
        bind_congr fun l => editListM_bind ih fun pss ls => next ([] :: placesFrom 0 pss) (l :: ls)
      _ = e.nodes.mapM r.atNode >>= fun ls => next e.places ls := by
        simp only [← places_eq, nodes_eq e, List.mapM_cons, bind_assoc, pure_bind]

/-! ## Editing positions, names and values only -/

/-- At a node, an editor that keeps the rest changes nothing but the payloads. -/
theorem relabel_bind {r : Editor m} (hr : r.KeepsRest) (l : Label) {β : Type}
    (next : Label → List Payload → m β) :
    (r.relabel l >>= fun l' => next l'.blank l'.payloads) =
      l.payloads.mapM r.rewrite >>= fun ps => next l.blank ps := by
  cases l <;>
    simp [Editor.relabel, Editor.rewrite, Label.payloads, Label.blank, hr.fieldTy, hr.castTy,
      hr.method, hr.operator]

/-- Along a list of nodes, an editor that keeps the rest changes nothing but the payloads. -/
theorem mapM_atNode_bind {r : Editor m} (hr : r.KeepsRest) (nodes : List Expr) {β : Type}
    (next : List Label → List Payload → m β) :
    (nodes.mapM r.atNode >>= fun ls => next (ls.map Label.blank) (ls.flatMap Label.payloads)) =
      nodes.mapM r.rewriteHere >>= fun pss =>
        next (nodes.map fun node => node.label.blank) pss.flatten := by
  induction nodes generalizing β with
  | nil => simp
  | cons node nodes ih =>
    have hrest (l : Label) (ps : List Payload) := ih fun ls pss => next (l :: ls) (ps ++ pss)
    have hnode := relabel_bind hr node.label fun l ps =>
      nodes.mapM r.rewriteHere >>= fun pss =>
        next (l :: nodes.map fun node => node.label.blank) (ps ++ pss.flatten)
    simp only [List.mapM_cons, Editor.atNode, Editor.rewriteHere, bind_assoc, pure_bind,
      List.map_cons, List.flatMap_cons, List.flatten_cons] at hrest hnode ⊢
    simp only [hrest, hnode]

/-! ## The first pass of folding -/

/-- What the first pass holds: whether all trees that it has left at this level can be replaced, and
the marks so far, by the index of their nodes. -/
structure Marking where
  foldable : Bool
  marks : Array Mark

/-- Comes to a tree: takes the next index for it, walks on inside, and then writes at the index
whether the tree can be replaced and how many indices have been taken from it on. -/
def marking (rule : Expr → Bool) (e : Expr) (inside : StateM Marking Unit) :
    StateM Marking Unit := do
  let before ← get
  set { foldable := true, marks := before.marks.push ⟨false, 0⟩ : Marking }
  inside
  let after ← get
  let index := before.marks.size
  let foldable := after.foldable && !e.isRow && rule e
  set { foldable := before.foldable && foldable,
        marks := after.marks.setIfInBounds index ⟨foldable, after.marks.size - index⟩ : Marking }

/-- The table that the first pass leaves. -/
def firstPass (rule : Expr → Bool) (e : Expr) : Array Mark :=
  ((e.watchM (marking rule)).run ⟨true, #[]⟩).2.marks

/-- At a node, the first pass appends a mark for it and those of the trees below, if the walk inside
appends the latter. -/
theorem run_marking {rule : Expr → Bool} {e : Expr} {inside : StateM Marking Unit} {s : Marking}
    {foldable : Bool} {below : List Mark}
    (h : (inside.run ⟨true, s.marks.push ⟨false, 0⟩⟩).2 =
      ⟨foldable, s.marks.push ⟨false, 0⟩ ++ below.toArray⟩) :
    ((marking rule e inside).run s).2 =
      ⟨s.foldable && leadsFoldable (markAbove rule e foldable below),
        s.marks ++ (markAbove rule e foldable below).toArray⟩ := by
  have hrun : ((marking rule e inside).run s).2 =
      let after := (inside.run ⟨true, s.marks.push ⟨false, 0⟩⟩).2
      let foldable := after.foldable && !e.isRow && rule e
      ⟨s.foldable && foldable, after.marks.setIfInBounds s.marks.size
        ⟨foldable, after.marks.size - s.marks.size⟩⟩ := rfl
  rw [hrun, h]
  simp [markAbove, leadsFoldable]

/-- The walk of the first pass over several trees appends their marks, if it does so for each. -/
theorem run_watchListM_marking {rule : Expr → Bool} {es : List Expr}
    (h : ∀ c ∈ es, ∀ s, ((c.watchM (marking rule)).run s).2 =
      ⟨s.foldable && leadsFoldable (c.marks rule), s.marks ++ (c.marks rule).toArray⟩)
    (s : Marking) :
    ((watchListM (marking rule) es).run s).2 =
      ⟨s.foldable && (marksOfList rule es).1, s.marks ++ (marksOfList rule es).2.toArray⟩ := by
  induction es generalizing s with
  | nil =>
    have hrun : ((watchListM (marking rule) []).run s).2 = s := rfl
    rw [hrun]
    simp [marksOfList]
  | cons c rest ih =>
    have hrun : ((watchListM (marking rule) (c :: rest)).run s).2 =
        ((watchListM (marking rule) rest).run ((c.watchM (marking rule)).run s).2).2 := rfl
    rw [hrun, h c List.mem_cons_self, ih fun d hd => h d (List.mem_cons_of_mem c hd)]
    simp [marksOfList, Bool.and_assoc]

/-- The walk of the first pass over a tree appends its marks. -/
theorem run_watchM_marking (rule : Expr → Bool) (e : Expr) (s : Marking) :
    ((e.watchM (marking rule)).run s).2 =
      ⟨s.foldable && leadsFoldable (e.marks rule), s.marks ++ (e.marks rule).toArray⟩ := by
  induction e using childrenInduction generalizing s with
  | node e ih =>
    rw [watchM_eq, marks_eq_markAbove]
    refine run_marking ?_
    rw [run_watchListM_marking ih, Bool.true_and]

/-- The first pass writes the marks that folding uses. -/
theorem firstPass_eq (rule : Expr → Bool) (e : Expr) :
    e.firstPass rule = (e.marks rule).toArray := by
  rw [firstPass, run_watchM_marking]
  simp

/-! ## The whole -/

/-- How the walks over a tree go along its nodes. -/
structure WalksAlike (e : Expr) : Prop where
  /-- All places of the tree are listed, each once and in their order. -/
  places : e.places.Pairwise (· < ·) ∧ ∀ p, p ∈ e.places ↔ (e.at? p).isSome = true
  /-- The list of the nodes has the node at each of them. -/
  nodes : e.nodes.map some = e.places.map e.at?
  /-- What is done at every node is done along this list. -/
  watched : ∀ (m : Type → Type) [Monad m] [LawfulMonad m] (f : Expr → m Unit),
    e.forEachM f = forM e.nodes f
  /-- So are the events of a walk told. -/
  events : e.events = e.nodes.flatMap eventsHere
  /-- An editor of any kind comes to the nodes along this list, each once.  The edited tree has the
  same places, and at each of them what the editor has given there. -/
  edited : ∀ (m : Type → Type) [Monad m] [LawfulMonad m] (r : Editor m),
    (fun e' => (e'.places, e'.labels)) <$> e.editM r =
      (fun ls => (e.places, ls)) <$> e.nodes.mapM r.atNode
  /-- There is no more to a tree than its places and what is carried there. -/
  determined : ∀ e' : Expr, e'.places = e.places → e'.labels = e.labels → e' = e
  /-- An editor that leaves types, methods and operators as they are gets each position, name and
  value once, along the list, and puts its answer in place of it.  All else stays. -/
  rewritten : ∀ (m : Type → Type) [Monad m] [LawfulMonad m] (r : Editor m), r.KeepsRest →
    (fun e' => (e'.places, e'.labels.map Label.blank, e'.labels.flatMap Label.payloads)) <$>
        e.editM r =
      (fun pss => (e.places, e.labels.map Label.blank, pss.flatten)) <$>
        e.nodes.mapM r.rewriteHere
  /-- The row is found in a tree exactly if it is in the list. -/
  mentionsRow_iff : e.mentionsRow = true ↔ ∃ node ∈ e.nodes, node.isRow = true
  /-- The first pass of folding writes the table that folding uses. -/
  table : ∀ rule, e.firstPass rule = (e.marks rule).toArray
  /-- For each node of the list, this has the number of the nodes that are
  listed below and at it. -/
  sizes : ∀ rule, (e.firstPass rule).toList.map (·.size) =
    e.nodes.map fun node => node.nodes.length

/-- The walks over every tree. -/
theorem walksAlike (e : Expr) : WalksAlike e := by
  refine ⟨⟨pairwise_places e, fun p => mem_places_iff⟩, (map_at?_places e).symm,
    fun m _ _ f => forEachM_eq f e, events_eq e, fun m _ _ r => ?_,
    fun e' => eq_of_places_of_labels, fun m _ _ r hr => ?_, ?_, fun rule => firstPass_eq rule e,
    fun rule => ?_⟩
  · rw [map_eq_pure_bind, map_eq_pure_bind]
    exact editM_bind r e fun ps ls => pure (ps, ls)
  · rw [map_eq_pure_bind, map_eq_pure_bind]
    have hedited := editM_bind r e fun ps ls =>
      (pure (ps, ls.map Label.blank, ls.flatMap Label.payloads) : m _)
    have hpayloads := mapM_atNode_bind hr e.nodes fun ls ps => (pure (e.places, ls, ps) : m _)
    rw [hedited, hpayloads, labels, List.map_map]
    rfl
  · rw [mentionsRow_eq_any_nodes, List.any_eq_true]
  · rw [firstPass_eq, marks_eq_map_nodes, List.map_map]
    exact List.map_congr_left fun node _ => (length_nodes node).symm

/-- A call on a member of the row with a captured variable: each position, name and value is changed
once. -/
theorem walksAlike_startsWith :
    Editor.marking.KeepsRest ∧
      ((call (some (field (row 0) "Name" .text)) "StartsWith"
        [captured "start" (.text "A")]).edit .marking).labels.flatMap Label.payloads =
      [.fieldName "NAME", .position 1, .capturedName "v_start", .value (.text "A!")] := by
  refine ⟨Editor.keepsRest_marking, ?_⟩
  have h := (walksAlike (call (some (field (row 0) "Name" .text)) "StartsWith"
    [captured "start" (.text "A")])).rewritten Id Editor.marking Editor.keepsRest_marking
  refine (congrArg (fun walked => walked.2.2) h).trans ?_
  rfl

end Expr

end RowQuery
