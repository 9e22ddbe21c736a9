import RowQuery.Proofs.Expr.Frames
import RowQuery.Proofs.Sql.AlikeTerms
import RowQuery.Proofs.Sql.Renderable

/-!
# Terms around a place

A conversion leaves no trace in a term, but the term around it is made by looking at expressions.
This module follows two expressions through the nodes around them: when their terms are related, so
are the terms of the whole.  With equality for the relation, a conversion can be left out at most
places.  With shorter texts for it, a bare truth value loses its comparison with one when it is
converted where a condition is expected.

Main results:

- Definition {lit}`Sql.Congruence`: a relation between terms that all ways to build a term keep.
- Theorem {lit}`Sql.parallel_plug`: related terms at a place make related terms of the whole.
- Theorem {lit}`Sql.takenAs_plug_cast`: where a conversion leaves no trace.
- Theorem {lit}`Sql.shorter_plug_cast`: where it makes the text shorter.
-/

namespace RowQuery

open Outcome

namespace Sql

variable {α β γ δ : Type}

/-! ## Computations in parallel -/

/-- Two computations that record constants behind the same ones fail with the same fault, or give
related answers and record the same constants. -/
def Parallel (rel : α → β → Prop) (x : Recording α) (y : Recording β) : Prop :=
  ∀ before, Agree (fun a b => rel a.1 b.1 ∧ a.2 = b.2) (x.run before) (y.run before)

namespace Parallel

variable {rel : α → β → Prop} {rel' : γ → δ → Prop}

/-- A computation runs in parallel with itself. -/
theorem refl (x : Recording α) : Parallel Eq x x :=
  fun _ => .refl (fun _ => ⟨rfl, rfl⟩) _

/-- Plain answers. -/
theorem pure {a : α} {b : β} (h : rel a b) : Parallel rel (Pure.pure a) (Pure.pure b) :=
  fun _ => .ok ⟨h, rfl⟩

/-- The same fault. -/
theorem throw (f : Fault) : Parallel rel (throw f) (throw f) :=
  fun _ => .error f

/-- Computations without a state. -/
theorem lift {x : Except Fault α} {y : Except Fault β} (h : Agree rel x y) :
    Parallel rel (liftM x) (liftM y) := by
  intro before
  cases h with
  | error f => exact .error f
  | ok h => exact .ok ⟨h, rfl⟩

/-- One step behind another. -/
theorem bind {x : Recording α} {y : Recording β} {f : α → Recording γ} {g : β → Recording δ}
    (h : Parallel rel x y) (hf : ∀ a b, rel a b → Parallel rel' (f a) (g b)) :
    Parallel rel' (x >>= f) (y >>= g) := by
  intro before
  rw [StateT.run_bind, StateT.run_bind]
  refine (h before).bind ?_
  rintro ⟨a, after⟩ ⟨b, _⟩ ⟨hab, rfl⟩
  exact hf a b hab after

/-- The same step without a state in front of others. -/
theorem bind_lift {x : Except Fault α} {f : α → Recording γ} {g : α → Recording δ}
    (h : ∀ a, x = .ok a → Parallel rel' (f a) (g a)) :
    Parallel rel' (liftM x >>= f) (liftM x >>= g) := by
  cases x with
  | error f => exact fun _ => .error f
  | ok a => exact h a rfl

/-- Computations in parallel with equal answers are the same. -/
theorem eq {x y : Recording α} (h : Parallel Eq x y) : x = y := by
  funext before
  refine ((h before).imp ?_).eq
  rintro ⟨a, after⟩ ⟨b, after'⟩ ⟨hab, hafter⟩
  exact Prod.ext hab hafter

end Parallel

/-! ## Relations between terms -/

/-- A relation between terms that is kept when both are built into the same term. -/
structure Congruence (rel : Term → Term → Prop) : Prop where
  isTrue : ∀ {t t' : Term}, rel t t' → rel (.isTrue t) (.isTrue t')
  negation : ∀ {t t' : Term}, rel t t' → rel (.negation t) (.negation t')
  nullTest : ∀ {t t' : Term} (negated : Bool), rel t t' →
    rel (.nullTest negated t) (.nullTest negated t')
  nullOrEmpty : ∀ {t t' : Term}, rel t t' → rel (.nullOrEmpty t) (.nullOrEmpty t')
  left : ∀ {t t' : Term} (op : BinaryOp) (u : Term), rel t t' →
    rel (.operation op t u) (.operation op t' u)
  right : ∀ {t t' : Term} (op : BinaryOp) (u : Term), rel t t' →
    rel (.operation op u t) (.operation op u t')
  target : ∀ {t t' : Term} (m : Method) (args : List Term), rel t t' →
    Agree rel (m.term t args) (m.term t' args)
  argument : ∀ {t t' : Term} (m : Method) (u : Term) (before after : List Term), rel t t' →
    Agree rel (m.term u (before ++ t :: after)) (m.term u (before ++ t' :: after))

/-- Equal terms are built into equal terms. -/
theorem congruence_eq : Congruence Eq where
  isTrue h := by rw [h]
  negation h := by rw [h]
  nullTest negated h := by rw [h]
  nullOrEmpty h := by rw [h]
  left op u h := by rw [h]
  right op u h := by rw [h]
  target m args h := by
    rw [h]
    exact .refl (fun _ => rfl) _
  argument m u before after h := by
    rw [h]
    exact .refl (fun _ => rfl) _

/-! ## Texts -/

namespace Term

variable {t : Term}

theorem text_operation (op : BinaryOp) (left right : Term) :
    (operation op left right).text =
      "(" ++ left.text ++ " " ++ op.sql ++ " " ++ right.text ++ ")" := rfl

theorem text_nullTest (negated : Bool) :
    (nullTest negated t).text =
      "(" ++ t.text ++ (if negated then " IS NOT NULL)" else " IS NULL)") := rfl

theorem text_isTrue : (isTrue t).text = "(" ++ t.text ++ " = 1)" := rfl

theorem text_negation : (negation t).text = "NOT " ++ t.text := rfl

theorem text_nullOrEmpty :
    (nullOrEmpty t).text = "(" ++ t.text ++ " IS NULL OR " ++ t.text ++ " = '')" := rfl

theorem text_like (before : Bool) (pattern : Term) (after : Bool) :
    (like t before pattern after).text =
      "(" ++ t.text ++ " LIKE " ++ (if before then "'%' + " else "") ++ pattern.text ++
        (if after then " + '%')" else ")") := rfl

theorem text_upper : (upper t).text = "UPPER(" ++ t.text ++ ")" := rfl

theorem text_lower : (lower t).text = "LOWER(" ++ t.text ++ ")" := rfl

theorem text_trimmed : (trimmed t).text = "RTRIM(LTRIM(" ++ t.text ++ "))" := rfl

theorem text_replaced (pattern new : Term) :
    (replaced t pattern new).text =
      "REPLACE(" ++ t.text ++ ", " ++ pattern.text ++ ", " ++ new.text ++ ")" := rfl

theorem text_piece (start length : Term) :
    (piece t start length).text =
      "SUBSTRING(" ++ t.text ++ ", " ++ start.text ++ " + 1, " ++ length.text ++ ")" := rfl

end Term

/-- The text of the second term is shorter. -/
def Shorter (t t' : Term) : Prop := t'.text.length < t.text.length

/-- The lengths of several texts together. -/
def textsLength : List Term → Nat
  | [] => 0
  | t :: rest => t.text.length + textsLength rest

/-- The lengths of two lists of texts add up. -/
theorem textsLength_append (ts us : List Term) :
    textsLength (ts ++ us) = textsLength ts + textsLength us := by
  induction ts with
  | nil => exact (Nat.zero_add _).symm
  | cons t rest ih => rw [List.cons_append, textsLength, textsLength, ih, Nat.add_assoc]

/-- The text of a call has those of the target and of the arguments in it, each once.  So it is
shorter if these are shorter together. -/
theorem agree_shorter_term (m : Method) {t t' : Term} {args args' : List Term}
    (hlength : args.length = args'.length)
    (h : textsLength (t' :: args') < textsLength (t :: args)) :
    Agree Shorter (m.term t args) (m.term t' args') := by
  match args, args', hlength with
  | [], [], _ =>
    simp only [textsLength] at h
    cases m
    case toUpper | toLower | trim =>
      refine .ok ?_
      simp only [Shorter, Term.text_upper, Term.text_lower, Term.text_trimmed, String.length_append]
      omega
    all_goals exact .error _
  | [p], [p'], _ =>
    simp only [textsLength] at h
    cases m
    case startsWith | endsWith | contains | substring =>
      refine .ok ?_
      simp only [Shorter, Term.text_like, Term.text_piece, String.length_append]
      omega
    all_goals exact .error _
  | [p, q], [p', q'], _ =>
    simp only [textsLength] at h
    cases m
    case replace | substring =>
      refine .ok ?_
      simp only [Shorter, Term.text_replaced, Term.text_piece, String.length_append]
      omega
    all_goals exact .error _
  | p :: q :: r :: rest, p' :: q' :: r' :: rest', hlength =>
    have herror (t p q r : Term) (rest : List Term) : m.term t (p :: q :: r :: rest) =
        .error (Fault.invalidQuery (.argumentCount m (rest.length + 3))) := by
      cases m <;> rfl
    have hrest : rest.length = rest'.length := by simpa using hlength
    rw [herror, herror, hrest]
    exact .error _

/-- Shorter terms are built into shorter terms. -/
theorem congruence_shorter : Congruence Shorter where
  isTrue h := by
    simp only [Shorter, Term.text_isTrue, String.length_append] at h ⊢
    omega
  negation h := by
    simp only [Shorter, Term.text_negation, String.length_append] at h ⊢
    omega
  nullTest negated h := by
    simp only [Shorter, Term.text_nullTest, String.length_append] at h ⊢
    omega
  nullOrEmpty h := by
    simp only [Shorter, Term.text_nullOrEmpty, String.length_append] at h ⊢
    omega
  left op u h := by
    simp only [Shorter, Term.text_operation, String.length_append] at h ⊢
    omega
  right op u h := by
    simp only [Shorter, Term.text_operation, String.length_append] at h ⊢
    omega
  target m args h := by
    refine agree_shorter_term m rfl ?_
    simp only [Shorter, textsLength] at h ⊢
    omega
  argument m u before after h := by
    refine agree_shorter_term m (by simp) ?_
    simp only [Shorter, textsLength, textsLength_append] at h ⊢
    omega

/-! ## Terms inside of one node -/

/-- The term of an expression as it is taken somewhere: a condition is made of a bare truth value
where a condition is expected. -/
def takenAs (k : Expr.Frame.Kind) (table : Table) (e : Expr) : Recording Term :=
  if k = .condition then Term.ofCondition table e else Term.ofExpr table e

@[simp]
theorem takenAs_condition (table : Table) (e : Expr) :
    takenAs .condition table e = Term.ofCondition table e := rfl

@[simp]
theorem takenAs_plain (table : Table) (e : Expr) :
    takenAs .plain table e = Term.ofExpr table e := rfl

/-- An expression that holds the row is no constant null. -/
theorem isNullConstant_of_mentionsRow {e : Expr} (h : e.mentionsRow = true) :
    e.isNullConstant = false := by
  match e with
  | .value _ | .captured _ _ => cases h
  | .cast e _ => exact isNullConstant_of_mentionsRow (e := e) h
  | .row _ | .field _ _ _ | .not _ | .call _ _ _ | .binary _ _ _ => rfl

/-- An expression that holds the row is no integer constant. -/
theorem integerConstant?_of_mentionsRow {e : Expr} (h : e.mentionsRow = true) :
    e.integerConstant? = none := by
  cases hk : e.integerConstant? with
  | none => rfl
  | some k =>
    rw [Expr.mentionsRow_of_integerConstant? hk] at h
    cases h

/-- A connective takes conditions, any other operator takes its operands as they are. -/
def operandKind (op : BinaryOp) : Expr.Frame.Kind :=
  if op.isLogical then .condition else .plain

/-- Two operands of which none is a constant null make an operation. -/
theorem ofExpr_operation {table : Table} {op : BinaryOp} {lhs rhs : Expr}
    (h : op.equality? = none ∨ lhs.isNullConstant = false ∧ rhs.isNullConstant = false) :
    Term.ofExpr table (.binary op lhs rhs) = do
      let left ← takenAs (operandKind op) table lhs
      let right ← takenAs (operandKind op) table rhs
      return .operation op left right := by
  rw [Term.ofExpr]
  split
  · rename_i hop hnull
    simp [hop, hnull] at h
  · rename_i hop _ hnull
    simp [hop, hnull] at h
  · cases hlogical : op.isLogical with
    | true => simp [takenAs, operandKind, hlogical, Term.ofCondition]
    | false => simp [takenAs, operandKind, hlogical]

/-- A test for equality is no connective. -/
theorem operandKind_of_equality? {op : BinaryOp} {negated : Bool}
    (h : op.equality? = some negated) : operandKind op = .plain := by
  rcases op with _ | _ | _
  · rfl
  · cases h
  · cases h

/-- To be equal to a constant null on the right is a test for null. -/
theorem ofExpr_nullTest_left (table : Table) {op : BinaryOp} {negated : Bool} (lhs : Expr)
    {rhs : Expr} (h : op.equality? = some negated) (hnull : rhs.isNullConstant = true) :
    Term.ofExpr table (.binary op lhs rhs) = do
      return .nullTest negated (← takenAs (operandKind op) table lhs) := by
  rw [Term.ofExpr, h, hnull, operandKind_of_equality? h, takenAs_plain]

/-- To be equal to a constant null on the left is a test for null. -/
theorem ofExpr_nullTest_right (table : Table) {op : BinaryOp} {negated : Bool} {lhs rhs : Expr}
    (h : op.equality? = some negated) (hnull : lhs.isNullConstant = true)
    (hother : rhs.isNullConstant = false) :
    Term.ofExpr table (.binary op lhs rhs) = do
      return .nullTest negated (← takenAs (operandKind op) table rhs) := by
  rw [Term.ofExpr, h, hnull, hother, operandKind_of_equality? h, takenAs_plain]

section

variable {rel : Term → Term → Prop} {table : Table} {e e' : Expr}

/-- Two lists of terms are related at one place, and the same elsewhere. -/
def InList (rel : Term → Term → Prop) (ts ts' : List Term) : Prop :=
  ∃ before t t' after, rel t t' ∧ ts = before ++ t :: after ∧ ts' = before ++ t' :: after

/-- Related terms of one argument make related lists of terms. -/
theorem parallel_ofArguments (hrow : e.mentionsRow = true) (hrow' : e'.mentionsRow = true)
    (h : Parallel rel (Term.ofExpr table e) (Term.ofExpr table e')) (writtenOut : Bool)
    (before after : List Expr) :
    Parallel (InList rel) (Term.ofArguments table writtenOut (before ++ e :: after))
      (Term.ofArguments table writtenOut (before ++ e' :: after)) := by
  induction before with
  | nil =>
    rw [List.nil_append, List.nil_append,
      ofArguments_cons table after fun _ => integerConstant?_of_mentionsRow hrow,
      ofArguments_cons table after fun _ => integerConstant?_of_mentionsRow hrow']
    refine h.bind fun t t' ht => (Parallel.refl _).bind ?_
    rintro ts _ rfl
    exact .pure ⟨[], t, t', ts, ht, rfl, rfl⟩
  | cons b before ih =>
    rw [List.cons_append, List.cons_append]
    by_cases hout : writtenOut = true → b.integerConstant? = none
    · rw [ofArguments_cons table _ hout, ofArguments_cons table _ hout]
      refine (Parallel.refl _).bind ?_
      rintro t _ rfl
      refine ih.bind ?_
      rintro _ _ ⟨ts, u, u', us, hu, rfl, rfl⟩
      exact .pure ⟨t :: ts, u, u', us, hu, rfl, rfl⟩
    · rcases Classical.not_imp.1 hout with ⟨rfl, hsome⟩
      rcases Option.ne_none_iff_exists'.1 hsome with ⟨n, hn⟩
      rw [ofArguments_written table _ hn, ofArguments_written table _ hn]
      refine ih.bind ?_
      rintro _ _ ⟨ts, u, u', us, hu, rfl, rfl⟩
      exact .pure ⟨.integer n :: ts, u, u', us, hu, rfl, rfl⟩

/-- Related terms in a static call make related calls. -/
theorem Congruence.static (hrel : Congruence rel) (m : Method) {ts ts' : List Term}
    (h : InList rel ts ts') : Agree rel (m.staticTerm ts) (m.staticTerm ts') := by
  rcases h with ⟨before, t, t', after, ht, rfl, rfl⟩
  rcases before with _ | ⟨b, _ | ⟨c, before⟩⟩
  · cases after with
    | nil => exact .ok (hrel.nullOrEmpty ht)
    | cons a after => exact .error _
  · exact .error _
  · have herror (ts : List Term) : m.staticTerm (b :: c :: ts) =
        .error (Fault.invalidQuery (.argumentCount m (ts.length + 2))) := rfl
    have hlength : (before ++ t :: after).length = (before ++ t' :: after).length := by
      rw [List.length_append, List.length_append, List.length_cons, List.length_cons]
    rw [List.cons_append, List.cons_append, List.cons_append, List.cons_append, herror, herror,
      hlength]
    exact .error _

/-- Related terms of the target of a call on an object make related terms of the call. -/
theorem parallel_target (hrel : Congruence rel) {method : String}
    (hstatic : Expr.callsStatic method = false)
    (h : Parallel rel (Term.ofExpr table e) (Term.ofExpr table e')) (args : List Expr) :
    Parallel rel (Term.ofExpr table (.call (some e) method args))
      (Term.ofExpr table (.call (some e') method args)) := by
  rw [Term.ofExpr, Term.ofExpr]
  refine .bind_lift fun m hm => ?_
  rw [Expr.callsStatic_of_ofName? (resolveInQuery_eq_ok.1 hm).1] at hstatic
  rw [hstatic, if_neg Bool.false_ne_true, if_neg Bool.false_ne_true]
  refine h.bind fun t t' ht => (Parallel.refl _).bind ?_
  rintro ts _ rfl
  exact .lift (hrel.target m ts ht)

/-- Related terms of an argument of a call make related terms of the call. -/
theorem parallel_argument (hrel : Congruence rel) (hrow : e.mentionsRow = true)
    (hrow' : e'.mentionsRow = true) (h : Parallel rel (Term.ofExpr table e) (Term.ofExpr table e'))
    (target : Option Expr) (method : String) (before after : List Expr) :
    Parallel rel (Term.ofExpr table (.call target method (before ++ e :: after)))
      (Term.ofExpr table (.call target method (before ++ e' :: after))) := by
  have hargs := fun writtenOut => parallel_ofArguments hrow hrow' h writtenOut before after
  have hlength : (before ++ e :: after).length = (before ++ e' :: after).length := by
    rw [List.length_append, List.length_append, List.length_cons, List.length_cons]
  cases target with
  | none =>
    rw [Term.ofExpr, Term.ofExpr, hlength]
    refine .bind_lift fun m _ => ?_
    split
    · exact (hargs _).bind fun ts ts' hts => .lift (hrel.static m hts)
    · exact .throw _
  | some t =>
    rw [Term.ofExpr, Term.ofExpr, hlength]
    refine .bind_lift fun m _ => ?_
    split
    · exact (hargs _).bind fun ts ts' hts => .lift (hrel.static m hts)
    · refine (Parallel.refl _).bind ?_
      rintro u _ rfl
      refine (hargs _).bind ?_
      rintro _ _ ⟨ts, v, v', us, hv, rfl, rfl⟩
      exact .lift (hrel.argument m u ts us hv)

/-- An operator is no test for equality, or its other operand is no constant null, or
it is a test for null. -/
theorem nullTest_or (op : BinaryOp) (other : Expr) :
    (op.equality? = none ∨ other.isNullConstant = false) ∨
      ∃ negated, op.equality? = some negated ∧ other.isNullConstant = true := by
  cases op.equality? with
  | none => exact .inl (.inl rfl)
  | some negated =>
    cases other.isNullConstant with
    | false => exact .inl (.inr rfl)
    | true => exact .inr ⟨negated, rfl, rfl⟩

/-- Related terms of a left operand make related terms of the operation. -/
theorem parallel_left (hrel : Congruence rel) (hrow : e.mentionsRow = true)
    (hrow' : e'.mentionsRow = true) (op : BinaryOp) (rhs : Expr)
    (h : Parallel rel (takenAs (operandKind op) table e) (takenAs (operandKind op) table e')) :
    Parallel rel (Term.ofExpr table (.binary op e rhs))
      (Term.ofExpr table (.binary op e' rhs)) := by
  rcases nullTest_or op rhs with hother | ⟨negated, hop, hother⟩
  · rw [ofExpr_operation (hother.imp_right (.intro (isNullConstant_of_mentionsRow hrow))),
      ofExpr_operation (hother.imp_right (.intro (isNullConstant_of_mentionsRow hrow')))]
    refine h.bind fun t t' ht => (Parallel.refl _).bind ?_
    rintro u _ rfl
    exact .pure (hrel.left op u ht)
  · rw [ofExpr_nullTest_left table e hop hother, ofExpr_nullTest_left table e' hop hother]
    exact h.bind fun t t' ht => .pure (hrel.nullTest negated ht)

/-- Related terms of a right operand make related terms of the operation. -/
theorem parallel_right (hrel : Congruence rel) (hrow : e.mentionsRow = true)
    (hrow' : e'.mentionsRow = true) (op : BinaryOp) (lhs : Expr)
    (h : Parallel rel (takenAs (operandKind op) table e) (takenAs (operandKind op) table e')) :
    Parallel rel (Term.ofExpr table (.binary op lhs e))
      (Term.ofExpr table (.binary op lhs e')) := by
  have hnull := isNullConstant_of_mentionsRow hrow
  have hnull' := isNullConstant_of_mentionsRow hrow'
  rcases nullTest_or op lhs with hother | ⟨negated, hop, hother⟩
  · rw [ofExpr_operation (hother.imp_right (⟨·, hnull⟩)),
      ofExpr_operation (hother.imp_right (⟨·, hnull'⟩))]
    refine (Parallel.refl _).bind ?_
    rintro u _ rfl
    exact h.bind fun t t' ht => .pure (hrel.right op u ht)
  · rw [ofExpr_nullTest_right table hop hother hnull, ofExpr_nullTest_right table hop hother hnull']
    exact h.bind fun t t' ht => .pure (hrel.nullTest negated ht)

/-- The term of a negation is that of the condition, negated. -/
theorem ofExpr_not (table : Table) (e : Expr) :
    Term.ofExpr table (.not e) = do return .negation (← takenAs .condition table e) := by
  simp [Term.ofExpr, takenAs, Term.ofCondition]

/-- The term of a converted expression is that of the expression. -/
theorem ofExpr_cast (table : Table) (e : Expr) (ty : Ty) :
    Term.ofExpr table (.cast e ty) = Term.ofExpr table e := by
  rw [Term.ofExpr]

/-- Related terms at the place of a node make related terms of the node. -/
theorem parallel_ofExpr_frame (hrel : Congruence rel) (hrow : e.mentionsRow = true)
    (hrow' : e'.mentionsRow = true) {f : Expr.Frame} (hwritten : f.kind ≠ .nothing)
    (hobject : f.kind = .object → e.isRow = false ∧ e'.isRow = false)
    (h : Parallel rel (takenAs f.kind table e) (takenAs f.kind table e')) :
    Parallel rel (Term.ofExpr table (f.plug e)) (Term.ofExpr table (f.plug e')) := by
  cases f with
  | member name ty =>
    rcases hobject rfl with ⟨hobj, hobj'⟩
    simp only [Expr.Frame.plug, Term.ofExpr, Term.ofMember, hobj, hobj', Bool.false_eq_true,
      if_false]
    exact .throw _
  | not =>
    rw [Expr.Frame.plug, Expr.Frame.plug, ofExpr_not, ofExpr_not]
    exact h.bind fun t t' ht => .pure (hrel.negation ht)
  | cast ty =>
    rw [Expr.Frame.plug, Expr.Frame.plug, ofExpr_cast, ofExpr_cast]
    exact h
  | target method args =>
    cases hstatic : Expr.callsStatic method with
    | true => exact absurd (by simp [Expr.Frame.kind, hstatic]) hwritten
    | false =>
      have hkind : Expr.Frame.kind (.target method args) = .plain := by
        simp [Expr.Frame.kind, hstatic]
      rw [hkind, takenAs_plain, takenAs_plain] at h
      exact parallel_target hrel hstatic h args
  | argument t method before after =>
    exact parallel_argument hrel hrow hrow' h t method before after
  | left op rhs => exact parallel_left hrel hrow hrow' op rhs h
  | right op lhs => exact parallel_right hrel hrow hrow' op lhs h

/-! ## Terms inside of several nodes -/

/-- Related terms of a node are related however the node is taken. -/
theorem parallel_takenAs_frame (hrel : Congruence rel) (f : Expr.Frame) (k : Expr.Frame.Kind)
    (h : Parallel rel (Term.ofExpr table (f.plug e)) (Term.ofExpr table (f.plug e'))) :
    Parallel rel (takenAs k table (f.plug e)) (takenAs k table (f.plug e')) := by
  unfold takenAs
  split
  · refine h.bind fun t t' ht => .pure ?_
    rw [Expr.asCondition, Expr.asCondition, f.isBareTruth_plug e e']
    split
    · exact hrel.isTrue ht
    · exact ht
  · exact h

/-- What is at a place inside of nodes is no row unless it is the whole. -/
theorem isRow_plug {C : List Expr.Frame} {k : Expr.Frame.Kind} (hk : k = .object)
    (hobject : Expr.innermost k C = .object → e.isRow = false) : (Expr.plug C e).isRow = false := by
  cases C with
  | nil => exact hobject hk
  | cons f C => exact f.isRow_plug _

/-- Related terms at a place make related terms of the whole, unless one of the nodes
leaves the place alone. -/
theorem parallel_plug (hrel : Congruence rel) (hrow : e.mentionsRow = true)
    (hrow' : e'.mentionsRow = true) (C : List Expr.Frame) (whole : Expr.Frame.Kind)
    (hwritten : .nothing ∉ C.map Expr.Frame.kind)
    (hobject : Expr.innermost whole C = .object → e.isRow = false ∧ e'.isRow = false)
    (h : Parallel rel (takenAs (Expr.innermost whole C) table e)
      (takenAs (Expr.innermost whole C) table e')) :
    Parallel rel (takenAs whole table (Expr.plug C e)) (takenAs whole table (Expr.plug C e')) := by
  induction C generalizing whole with
  | nil => exact h
  | cons f C ih =>
    rw [List.map_cons, List.mem_cons, not_or] at hwritten
    refine parallel_takenAs_frame hrel f whole ?_
    refine parallel_ofExpr_frame hrel (Expr.mentionsRow_plug C hrow) (Expr.mentionsRow_plug C hrow')
      (Ne.symm hwritten.1) ?_ (ih f.kind hwritten.2 hobject h)
    intro hkind
    exact ⟨isRow_plug hkind fun hin => (hobject hin).1, isRow_plug hkind fun hin => (hobject hin).2⟩

/-- A target that is left alone does not matter. -/
theorem ofExpr_frame_nothing {f : Expr.Frame} (h : f.kind = .nothing) :
    Term.ofExpr table (f.plug e) = Term.ofExpr table (f.plug e') := by
  cases f with
  | target method args =>
    rw [Expr.Frame.plug, Expr.Frame.plug, Term.ofExpr, Term.ofExpr]
    refine (Parallel.bind_lift fun m hm => ?_).eq
    cases hstatic : m.isStatic with
    | true =>
      rw [if_pos rfl, if_pos rfl]
      exact .refl _
    | false =>
      rw [Expr.Frame.kind, Expr.callsStatic_of_ofName? (resolveInQuery_eq_ok.1 hm).1, hstatic] at h
      cases h
  | left op rhs | right op lhs =>
    rw [Expr.Frame.kind] at h
    split at h <;> cases h
  | member _ _ | not | cast _ | argument _ _ _ _ => cases h

/-- Equal terms at a place make equal terms of the whole, and any terms do where one of the nodes
leaves the place alone. -/
theorem takenAs_plug (hrow : e.mentionsRow = true) (hrow' : e'.mentionsRow = true)
    (C : List Expr.Frame) (whole : Expr.Frame.Kind)
    (hobject : Expr.innermost whole C = .object → e.isRow = false ∧ e'.isRow = false)
    (h : .nothing ∈ C.map Expr.Frame.kind ∨ takenAs (Expr.innermost whole C) table e =
      takenAs (Expr.innermost whole C) table e') :
    takenAs whole table (Expr.plug C e) = takenAs whole table (Expr.plug C e') := by
  induction C generalizing whole with
  | nil =>
    rcases h with h | h
    · cases h
    · exact h
  | cons f C ih =>
    refine (parallel_takenAs_frame congruence_eq f whole ?_).eq
    by_cases hf : f.kind = .nothing
    · rw [ofExpr_frame_nothing hf]
      exact .refl _
    · have hinside :
          takenAs f.kind table (Expr.plug C e) = takenAs f.kind table (Expr.plug C e') := by
        refine ih f.kind hobject ?_
        rcases h with h | h
        · exact .inl ((List.mem_cons.1 h).resolve_left (Ne.symm hf))
        · exact .inr h
      refine parallel_ofExpr_frame congruence_eq (Expr.mentionsRow_plug C hrow)
        (Expr.mentionsRow_plug C hrow') hf ?_ (hinside ▸ .refl _)
      intro hkind
      exact ⟨isRow_plug hkind fun hin => (hobject hin).1,
        isRow_plug hkind fun hin => (hobject hin).2⟩

end

/-! ## Conversions -/

variable {t : Expr}

/-- A converted expression is taken like the expression, unless that is a bare truth value and
taken for a condition. -/
theorem takenAs_cast (table : Table) {k : Expr.Frame.Kind} (ty : Ty)
    (h : ¬ (k = .condition ∧ t.isBareTruth = true)) :
    takenAs k table (.cast t ty) = takenAs k table t := by
  unfold takenAs
  split
  · rename_i hk
    have hbare : t.isBareTruth = false := Bool.eq_false_iff.2 fun hbare => h ⟨hk, hbare⟩
    have hsame : Expr.asCondition (.cast t ty) = Expr.asCondition t := by
      funext u
      rw [Expr.asCondition, Expr.asCondition, hbare]
      rfl
    rw [Term.ofCondition, Term.ofCondition, ofExpr_cast, hsame]
  · exact ofExpr_cast table t ty

/-- A conversion leaves no trace, except where a condition is made of a bare truth value. -/
theorem takenAs_plug_cast (table : Table) (hrow : t.mentionsRow = true) (C : List Expr.Frame)
    (whole : Expr.Frame.Kind) (ty : Ty)
    (hobject : Expr.innermost whole C = .object → t.isRow = false)
    (h : ¬ (Expr.innermost whole C = .condition ∧ t.isBareTruth = true ∧
      .nothing ∉ C.map Expr.Frame.kind)) :
    takenAs whole table (Expr.plug C (.cast t ty)) = takenAs whole table (Expr.plug C t) := by
  have hcast : (Expr.cast t ty).mentionsRow = true := hrow
  refine takenAs_plug hcast hrow C whole (fun hin => ⟨rfl, hobject hin⟩) ?_
  by_cases hwritten : .nothing ∈ C.map Expr.Frame.kind
  · exact .inl hwritten
  · exact .inr (takenAs_cast table ty fun hboth => h ⟨hboth.1, hboth.2, hwritten⟩)

/-- A bare truth value that is converted where a condition is expected loses its comparison. -/
theorem shorter_plug_cast (table : Table) (hrow : t.mentionsRow = true) (C : List Expr.Frame)
    (whole : Expr.Frame.Kind) (ty : Ty) (hcondition : Expr.innermost whole C = .condition)
    (hbare : t.isBareTruth = true) (hwritten : .nothing ∉ C.map Expr.Frame.kind) :
    Parallel Shorter (takenAs whole table (Expr.plug C t))
      (takenAs whole table (Expr.plug C (.cast t ty))) := by
  have hcast : (Expr.cast t ty).mentionsRow = true := hrow
  refine parallel_plug congruence_shorter hrow hcast C whole hwritten ?_ ?_
  · rw [hcondition]
    exact nofun
  · rw [hcondition, takenAs_condition, takenAs_condition, Term.ofCondition, Term.ofCondition,
      ofExpr_cast]
    refine (Parallel.refl _).bind ?_
    rintro u _ rfl
    refine .pure ?_
    rw [Expr.asCondition, if_pos hbare]
    have hparen : 0 < "(".length := by decide
    simp only [Expr.asCondition, Expr.isBareTruth, Bool.false_eq_true, if_false, Shorter,
      Term.text_isTrue, String.length_append]
    omega

end Sql

end RowQuery
