import RowQuery.Proofs.Expr.LargestSubtrees
import RowQuery.Proofs.Sql.RecordedConstants

/-!
# Expressions around a place

A place in an expression is given by what stands around it, node by node from the outside to
the inside.  This module says what a renderer looks at there, and that folding leaves the
place as it is if the expression at the place holds the row: the nodes around it stay,
whatever is folded beside them.

Main results:

- Definitions {lit}`Expr.Frame` and {lit}`Expr.plug`: a node around a place, and an
  expression put into the place.
- Definition {lit}`Expr.Frame.kind`: how a node takes the expression at its place.
- Theorem {lit}`Expr.agree_fold_plug`: an expression that holds the row and a conversion of it
  fold alike at every place.
-/

namespace RowQuery.Expr

open Outcome

/-! ## Frames -/

/-- A node with a place for one of the trees below it. -/
inductive Frame where
  /-- The object of a member. -/
  | member (name : String) (ty : Ty)
  /-- A negated condition. -/
  | not
  /-- A converted expression. -/
  | cast (ty : Ty)
  /-- The target of a call. -/
  | target (method : String) (args : List Expr)
  /-- An argument of a call, behind and in front of others. -/
  | argument (target : Option Expr) (method : String) (before after : List Expr)
  /-- A left operand. -/
  | left (op : BinaryOp) (rhs : Expr)
  /-- A right operand. -/
  | right (op : BinaryOp) (lhs : Expr)

namespace Frame

/-- The node with an expression in its place. -/
def plug : Frame → Expr → Expr
  | member name ty, e => .field e name ty
  | not, e => .not e
  | cast ty, e => .cast e ty
  | target method args, e => .call (some e) method args
  | argument t method before after, e => .call t method (before ++ e :: after)
  | left op rhs, e => .binary op e rhs
  | right op lhs, e => .binary op lhs e

/-- How a node takes the expression at its place. -/
inductive Kind where
  /-- As an object. -/
  | object
  /-- As a condition, which has to be made of a bare truth value. -/
  | condition
  /-- Not at all. -/
  | nothing
  /-- As it is. -/
  | plain
  deriving DecidableEq, Repr

/-- How a node takes the expression at its place.  Negation and connectives take conditions, and a
static call leaves its target alone. -/
def kind : Frame → Kind
  | member _ _ => .object
  | not => .condition
  | cast _ => .plain
  | target method _ => if callsStatic method then .nothing else .plain
  | argument _ _ _ _ => .plain
  | left op _ => if op.isLogical then .condition else .plain
  | right op _ => if op.isLogical then .condition else .plain

end Frame

/-- An expression in the place inside of several nodes, the outermost first. -/
def plug (C : List Frame) (e : Expr) : Expr :=
  C.foldr Frame.plug e

/-- How the innermost of several nodes takes the expression at its place.  Without a node, this is
how the whole is taken. -/
def innermost (whole : Frame.Kind) (C : List Frame) : Frame.Kind :=
  C.foldl (fun _ f => f.kind) whole

/-- Only how the nodes take their places matters. -/
theorem innermost_congr {C C' : List Frame} (h : C'.map Frame.kind = C.map Frame.kind)
    (whole : Frame.Kind) : innermost whole C' = innermost whole C := by
  have hmap (C : List Frame) :
      innermost whole C = (C.map Frame.kind).foldl (fun _ k => k) whole := by
    rw [innermost, List.foldl_map]
  rw [hmap, hmap, h]

/-! ## The row below a node -/

/-- The row is below a node or the node. -/
theorem mentionsRow_eq (e : Expr) :
    e.mentionsRow = (e.isRow || e.children.any mentionsRow) := by
  have hlist (es : List Expr) : anyMentionsRow es = es.any mentionsRow := by
    induction es with
    | nil => rfl
    | cons e rest ih => rw [anyMentionsRow, ih, List.any_cons]
  rcases e with _ | _ | _ | _ | _ | _ | ⟨_ | _, _, _⟩ | _ <;>
    simp [mentionsRow, isRow, children, hlist]

/-- An expression that holds the row is not folded as a whole. -/
theorem foldable_of_mentionsRow {rule : Expr → Bool} {e : Expr} (h : e.mentionsRow = true) :
    e.foldable rule = false := by
  induction e using childrenInduction with
  | node e ih =>
    rw [mentionsRow_eq, Bool.or_eq_true, List.any_eq_true] at h
    rw [foldable_eq]
    rcases h with hrow | ⟨c, hc, hrow⟩
    · simp [hrow]
    · have hall : e.children.all (foldable rule) = false := by
        rw [List.all_eq_false]
        exact ⟨c, hc, by simp [ih c hc hrow]⟩
      simp [hall]

/-- An expression that holds the row keeps its root and the row when its largest subtrees are
replaced. -/
theorem replaceLargest_of_mentionsRow {rule : Expr → Bool} {replacement : Expr → Expr} {e : Expr}
    (h : e.mentionsRow = true) :
    ∃ cs, cs.length = e.children.length ∧ e.replaceLargest rule replacement = e.withChildren cs ∧
      (e.replaceLargest rule replacement).mentionsRow = true := by
  induction e using childrenInduction with
  | node e ih =>
    have heq : e.replaceLargest rule replacement =
        e.withChildren (e.children.map (replaceLargest rule replacement)) := by
      rw [replaceLargest_eq, foldable_of_mentionsRow h, if_neg Bool.false_ne_true]
    refine ⟨_, List.length_map _, heq, ?_⟩
    rw [heq, mentionsRow_eq, isRow_withChildren, children_withChildren (List.length_map _)]
    rw [mentionsRow_eq, Bool.or_eq_true, List.any_eq_true] at h
    rcases h with hrow | ⟨c, hc, hrow⟩
    · rw [hrow, Bool.true_or]
    · rcases ih c hc hrow with ⟨_, _, _, hrow'⟩
      rw [Bool.or_eq_true, List.any_eq_true]
      exact .inr ⟨_, List.mem_map_of_mem hc, hrow'⟩

/-- Whether a node is a bare truth value does not depend on what is below it. -/
@[simp]
theorem isBareTruth_withChildren (e : Expr) (cs : List Expr) :
    (e.withChildren cs).isBareTruth = e.isBareTruth := by
  unfold withChildren
  split <;> rfl

namespace Frame

/-- What is at the place of a node is below it. -/
theorem mem_children_plug (f : Frame) (e : Expr) : e ∈ (f.plug e).children := by
  cases f with
  | argument t _ before after => cases t <;> simp [plug, children]
  | _ => simp [plug, children]

/-- A node is no row. -/
theorem isRow_plug (f : Frame) (e : Expr) : (f.plug e).isRow = false := by
  cases f <;> rfl

/-- Whether a node is a bare truth value does not depend on what is at its place. -/
theorem isBareTruth_plug (f : Frame) (e e' : Expr) :
    (f.plug e).isBareTruth = (f.plug e').isBareTruth := by
  cases f <;> rfl

/-- A node holds the row if what is at its place does. -/
theorem mentionsRow_plug (f : Frame) {e : Expr} (h : e.mentionsRow = true) :
    (f.plug e).mentionsRow = true := by
  rw [mentionsRow_eq, Bool.or_eq_true, List.any_eq_true]
  exact .inr ⟨e, f.mem_children_plug e, h⟩

end Frame

/-- An expression holds the row if what is at one of its places does. -/
theorem mentionsRow_plug (C : List Frame) {e : Expr} (h : e.mentionsRow = true) :
    (plug C e).mentionsRow = true := by
  induction C with
  | nil => exact h
  | cons f C ih => exact f.mentionsRow_plug ih

/-! ## Folding around a place -/

/-- Two expressions are the same around a place that is taken in some way, and
related at the place. -/
def InFrame (rel : Expr → Expr → Prop) (k : Frame.Kind) (e e' : Expr) : Prop :=
  ∃ f c c', Frame.kind f = k ∧ rel c c' ∧ e = f.plug c ∧ e' = f.plug c'

/-- A tree that holds the row is folded inside. -/
theorem collapseOr_of_mentionsRow {rule : Expr → Bool} {e : Expr} (h : e.mentionsRow = true)
    (inside : Except Fault Expr) : collapseOr rule e inside = inside := by
  rw [collapseOr, foldable_of_mentionsRow h, if_neg Bool.false_ne_true]

/-- Two trees that fold alike do so between the same others. -/
theorem agree_foldListInOne {rule : Expr → Bool} {rel : Expr → Expr → Prop} {e e' : Expr}
    (h : Agree rel (e.foldInOne rule) (e'.foldInOne rule)) (before after : List Expr) :
    Agree (fun l l' => ∃ before' c c' after', rel c c' ∧ l = before' ++ c :: after' ∧
        l' = before' ++ c' :: after')
      (foldListInOne rule (before ++ e :: after)) (foldListInOne rule (before ++ e' :: after)) := by
  induction before with
  | nil =>
    have hafter : Agree Eq (foldListInOne rule after) (foldListInOne rule after) :=
      .refl (fun _ => rfl) _
    refine h.bind fun c c' hc => hafter.bind ?_
    rintro after' _ rfl
    exact .ok ⟨[], c, c', after', hc, rfl, rfl⟩
  | cons b before ih =>
    have hb : Agree Eq (b.foldInOne rule) (b.foldInOne rule) := .refl (fun _ => rfl) _
    refine hb.bind ?_
    rintro b' _ rfl
    refine ih.bind ?_
    rintro _ _ ⟨before', c, c', after', hc, rfl, rfl⟩
    exact .ok ⟨b' :: before', c, c', after', hc, rfl, rfl⟩

/-- Two trees that hold the row and fold alike do so at the place of a node. -/
theorem agree_foldInOne_frame {rule : Expr → Bool} {rel : Expr → Expr → Prop} {e e' : Expr}
    (h : Agree rel (e.foldInOne rule) (e'.foldInOne rule)) (hrow : e.mentionsRow = true)
    (hrow' : e'.mentionsRow = true) (f : Frame) :
    Agree (InFrame rel f.kind) ((f.plug e).foldInOne rule) ((f.plug e').foldInOne rule) := by
  have hplug := f.mentionsRow_plug hrow
  have hplug' := f.mentionsRow_plug hrow'
  have hsame (es : List Expr) : Agree Eq (foldListInOne rule es) (foldListInOne rule es) :=
    .refl (fun _ => rfl) _
  have hself (e : Expr) : Agree Eq (e.foldInOne rule) (e.foldInOne rule) := .refl (fun _ => rfl) _
  cases f with
  | member name ty =>
    simp only [Frame.plug] at hplug hplug' ⊢
    rw [foldInOne, foldInOne, collapseOr_of_mentionsRow hplug, collapseOr_of_mentionsRow hplug']
    exact h.bind fun c c' hc => .ok ⟨.member name ty, c, c', rfl, hc, rfl, rfl⟩
  | not =>
    simp only [Frame.plug] at hplug hplug' ⊢
    rw [foldInOne, foldInOne, collapseOr_of_mentionsRow hplug, collapseOr_of_mentionsRow hplug']
    exact h.bind fun c c' hc => .ok ⟨.not, c, c', rfl, hc, rfl, rfl⟩
  | cast ty =>
    simp only [Frame.plug] at hplug hplug' ⊢
    rw [foldInOne, foldInOne, collapseOr_of_mentionsRow hplug, collapseOr_of_mentionsRow hplug']
    exact h.bind fun c c' hc => .ok ⟨.cast ty, c, c', rfl, hc, rfl, rfl⟩
  | target method args =>
    simp only [Frame.plug] at hplug hplug' ⊢
    rw [foldInOne, foldInOne, collapseOr_of_mentionsRow hplug, collapseOr_of_mentionsRow hplug']
    refine h.bind fun c c' hc => (hsame args).bind ?_
    rintro args' _ rfl
    exact .ok ⟨.target method args', c, c', rfl, hc, rfl, rfl⟩
  | argument t method before after =>
    simp only [Frame.plug] at hplug hplug' ⊢
    cases t with
    | none =>
      rw [foldInOne, foldInOne, collapseOr_of_mentionsRow hplug, collapseOr_of_mentionsRow hplug']
      refine (agree_foldListInOne h before after).bind ?_
      rintro _ _ ⟨before', c, c', after', hc, rfl, rfl⟩
      exact .ok ⟨.argument none method before' after', c, c', rfl, hc, rfl, rfl⟩
    | some t =>
      rw [foldInOne, foldInOne, collapseOr_of_mentionsRow hplug, collapseOr_of_mentionsRow hplug']
      refine (hself t).bind ?_
      rintro t' _ rfl
      refine (agree_foldListInOne h before after).bind ?_
      rintro _ _ ⟨before', c, c', after', hc, rfl, rfl⟩
      exact .ok ⟨.argument (some t') method before' after', c, c', rfl, hc, rfl, rfl⟩
  | left op rhs =>
    simp only [Frame.plug] at hplug hplug' ⊢
    rw [foldInOne, foldInOne, collapseOr_of_mentionsRow hplug, collapseOr_of_mentionsRow hplug']
    refine h.bind fun c c' hc => (hself rhs).bind ?_
    rintro rhs' _ rfl
    exact .ok ⟨.left op rhs', c, c', rfl, hc, rfl, rfl⟩
  | right op lhs =>
    simp only [Frame.plug] at hplug hplug' ⊢
    rw [foldInOne, foldInOne, collapseOr_of_mentionsRow hplug, collapseOr_of_mentionsRow hplug']
    refine (hself lhs).bind ?_
    rintro lhs' _ rfl
    exact h.bind fun c c' hc => .ok ⟨.right op lhs', c, c', rfl, hc, rfl, rfl⟩

/-- Two expressions are the same but for a conversion.  It is around an expression that holds the
row and has the looks of another one, and at a place that is taken like another one. -/
def CastApart (ty : Ty) (C : List Frame) (t e e' : Expr) : Prop :=
  ∃ C' t', e = plug C' t' ∧ e' = plug C' (.cast t' ty) ∧ C'.map Frame.kind = C.map Frame.kind ∧
    t'.mentionsRow = true ∧ t'.isRow = t.isRow ∧ t'.isBareTruth = t.isBareTruth

/-- An expression that holds the row and a conversion of it fold alike. -/
theorem agree_foldInOne_cast {rule : Expr → Bool} {t : Expr} (h : t.mentionsRow = true) (ty : Ty) :
    Agree (CastApart ty [] t) (t.foldInOne rule) ((Expr.cast t ty).foldInOne rule) := by
  have hcast : (Expr.cast t ty).mentionsRow = true := h
  have hinside : (Expr.cast t ty).foldInOne rule = do return .cast (← t.foldInOne rule) ty := by
    rw [foldInOne, collapseOr_of_mentionsRow hcast]
  rw [hinside, foldInOne_largest]
  cases (t.largest rule).findSome? fault? with
  | some f => exact .error f
  | none =>
    rcases replaceLargest_of_mentionsRow h with ⟨cs, _, heq, hrow⟩
    refine .ok ⟨[], _, rfl, rfl, rfl, hrow, ?_, ?_⟩
    · rw [heq, isRow_withChildren]
    · rw [heq, isBareTruth_withChildren]

/-- At every place, an expression that holds the row and a conversion of it fold alike. -/
theorem agree_fold_plug {rule : Expr → Bool} {t : Expr} (h : t.mentionsRow = true) (ty : Ty)
    (C : List Frame) :
    Agree (CastApart ty C t) ((plug C t).fold rule) ((plug C (.cast t ty)).fold rule) := by
  rw [fold_eq, fold_eq]
  induction C with
  | nil => exact agree_foldInOne_cast h ty
  | cons f C ih =>
    have hcast : (Expr.cast t ty).mentionsRow = true := h
    have hframe := agree_foldInOne_frame ih (mentionsRow_plug C h) (mentionsRow_plug C hcast) f
    refine hframe.imp ?_
    rintro _ _ ⟨f', _, _, hkind, ⟨C', t', rfl, rfl, hC, ht⟩, rfl, rfl⟩
    exact ⟨f' :: C', t', rfl, rfl, by rw [List.map_cons, hkind, hC, List.map_cons], ht⟩

end RowQuery.Expr
