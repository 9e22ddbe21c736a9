import RowQuery.Proofs.Expr.Calls
import RowQuery.Proofs.Expr.Children
import RowQuery.Proofs.Value.IntegerArithmetic

/-!
# Static types and values

The type that an expression is expected to have is found without its value, so the two may disagree.
They agree for every node but a computation: there the expected type is that of the left operand,
while the value has the wider type of the two operands.

Main results:

- Theorem {lit}`Value.ty_of_compute`: the type of what a computation gives, from its operands.
- Theorem {lit}`Expr.typedSoundly_iff`: the expressions whose value belongs to the expected type.
- Theorem {lit}`Expr.typedSoundly_of_matched`: it does wherever the left operand of each computation
  is expected to be at least as wide as the right one.
- Theorem {lit}`Expr.not_typedSoundly_smallPlusWide`: a sum of 16 and of 32 bits is expected to
  have 16 bits, and has 32.
-/

namespace RowQuery

open Outcome

/-! ## Values of a type -/

namespace Value

/-- The value belongs to the type, its optional wrappers apart; to the unknown type belongs
anything.  A value of an enumeration counts as one of 64 bits as well. -/
def Fits (v : Value) (t : Ty) : Prop :=
  t.core = .unknown ∨ v.isA t = true ∨ v.isEnum = true ∧ t.core = .int64

/-- A value that is none of an enumeration belongs to its own type and to the unknown one. -/
theorem fits_iff {v : Value} (hnull : v.isNull = false) (henum : v.isEnum = false) (t : Ty) :
    v.Fits t ↔ t.core = .unknown ∨ t.core = v.ty := by
  rw [Fits, henum, ← isA_core hnull]
  cases hcore : t.core with
  | option inner =>
    have hoption := t.isOption_core
    rw [hcore] at hoption
    cases hoption
  | enum e =>
    cases v with
    | enum value => cases henum
    | _ => simp [isA, ty]
  | _ =>
    rw [isA_eq rfl fun _ => Ty.noConfusion, henum]
    simp [eq_comm]

/-- A value that is none of an enumeration is one of the type that it reports. -/
theorem isA_ty {v : Value} (henum : v.isEnum = false) : v.isA v.ty = true := by
  cases v with
  | enum e => cases henum
  | _ => rfl

/-- A value belongs to the type that it reports. -/
theorem fits_ty (v : Value) : v.Fits v.ty := by
  cases v with
  | enum e => exact .inr (.inr ⟨rfl, rfl⟩)
  | _ => exact .inr (.inl rfl)

/-- What is converted to a type belongs to the type, if it is not null. -/
theorem isA_of_cast_eq_ok {v w : Value} {t : Ty} (h : v.cast t = .ok w) (hnull : w.isNull = false) :
    t.core = .unknown ∨ w.isA t = true := by
  cases v with
  | null =>
    rw [cast_null] at h
    cases h
    cases hnull
  | _ => exact (isA_of_cast rfl h).2.imp_right (isA_core hnull t).symm.trans

/-! ## Types of results -/

/-- The type of what a computation with two values gives: a text if one is a text that is added,
else a floating-point number if one is, else an integer as wide as the wider one. -/
def resultTy (op : Arithmetic) (a b : Value) : Ty :=
  if op = .add ∧ (a.text?.isSome || b.text?.isSome) then .text
  else if a.isDouble || b.isDouble then .double
  else widerTy a b

/-- A conversion to an integer type gives an integer of the type. -/
theorem ty_of_cast_integerTy {v w : Value} {t : Ty} (ht : IntegerTy t) (hnull : v.isNull = false)
    (h : v.cast t = .ok w) : w.ty = t ∧ w.isEnum = false := by
  have hbelongs := (isA_of_cast hnull h).2
  rcases ht with rfl | rfl | rfl
  all_goals
    have hisA := hbelongs.resolve_left Ty.noConfusion
    rw [isA_eq rfl fun _ => Ty.noConfusion, Bool.and_eq_true, Bool.not_eq_true',
      decide_eq_true_eq] at hisA
    exact ⟨hisA.2, hisA.1⟩

/-- What a computation gives is of the type found from its operands, and none of them is null. -/
theorem ty_of_compute {op : Arithmetic} {a b v : Value} (h : compute op a b = .ok v)
    (hnull : v.isNull = false) :
    v.ty = resultTy op a b ∧ v.isEnum = false ∧ a.isNull = false ∧ b.isNull = false := by
  rw [compute] at h
  rw [resultTy]
  split at h
  · cases h
    cases hnull
  · rename_i hnulls
    rw [Bool.or_eq_true, not_or, Bool.not_eq_true, Bool.not_eq_true] at hnulls
    split at h
    · rename_i htext
      rw [if_pos htext]
      rw [join] at h
      obtain ⟨s, -, h⟩ := bind_eq_ok.1 h
      obtain ⟨t, -, h⟩ := bind_eq_ok.1 h
      cases h
      exact ⟨rfl, rfl, hnulls⟩
    · rename_i htext
      rw [if_neg htext]
      split at h
      · rename_i hdouble
        rw [if_pos hdouble]
        split at h
        · cases h
          exact ⟨rfl, rfl, hnulls⟩
        · cases h
      · rename_i hdouble
        rw [if_neg hdouble]
        split at h
        · obtain ⟨k, -, hcast⟩ := bind_eq_ok.1 h
          obtain ⟨hty, henum⟩ := ty_of_cast_integerTy (integerTy_widerTy a b) rfl hcast
          exact ⟨hty, henum, hnulls⟩
        · cases h

/-- The type of a result depends on the types of the operands alone, if none is a value of an
enumeration. -/
theorem resultTy_eq (op : Arithmetic) {a b : Value} (ha : a.isEnum = false)
    (hb : b.isEnum = false) :
    resultTy op a b =
      if op = .add ∧ (a.ty = .text ∨ b.ty = .text) then .text
      else if a.ty = .double ∨ b.ty = .double then .double
      else a.ty.wider b.ty := by
  have htext (v : Value) : v.text?.isSome = decide (v.ty = .text) := by cases v <;> rfl
  have hdouble (v : Value) : v.isDouble = decide (v.ty = .double) := by cases v <;> rfl
  have hwide {v : Value} (hv : v.isEnum = false) :
      v.ty = .int64 ∧ v.isNumeric = true ↔ v.ty = .int64 := by
    cases v with
    | enum e => cases hv
    | _ => simp [ty, isNumeric]
  simp only [resultTy, widerTy, Ty.wider, htext, hdouble, hwide ha, hwide hb, ← Bool.decide_or,
    decide_eq_true_eq]

/-- With a text, the only computation that gives anything is the sum, which is a text. -/
theorem resultTy_of_text {op : Arithmetic} {a b v : Value} (h : compute op a b = .ok v)
    (hnull : v.isNull = false) (htext : a.ty = .text ∨ b.ty = .text) : resultTy op a b = .text := by
  have hnumber {u : Value} (hu : u.ty = .text) :
      u.text?.isSome = true ∧ u.double? = none ∧ u.integer? = none := by
    cases u with
    | text s => exact ⟨rfl, rfl, rfl⟩
    | _ => cases hu
  have hsome : (a.text?.isSome || b.text?.isSome) = true :=
    Bool.or_eq_true_iff.2 (htext.imp (fun ha => (hnumber ha).1) fun hb => (hnumber hb).1)
  by_cases hadd : op = .add
  · rw [resultTy, if_pos ⟨hadd, hsome⟩]
  · -- a text is no number, so no other computation is defined
    exfalso
    rw [compute, if_neg (not_and_of_not_left _ hadd)] at h
    split at h
    · cases h
      cases hnull
    · rcases htext with ha | hb
      · simp [(hnumber ha).2] at h
      · simp [(hnumber hb).2] at h

/-- A negation that is not null is a truth value. -/
theorem negate_eq_ok {v w : Value} (h : v.negate = .ok w) (hnull : w.isNull = false) :
    ∃ b, w = .bool b := by
  cases v with
  | bool b =>
    cases h
    exact ⟨_, rfl⟩
  | null =>
    cases h
    cases hnull
  | _ => cases h

end Value

/-! ## Types of numbers -/

namespace Ty

/-- The types of numbers that are no wider than a type of numbers. -/
def takesIn : Ty → List Ty
  | .double => [.int16, .int32, .int64, .double]
  | .int64 => [.int16, .int32, .int64]
  | .int32 => [.int16, .int32]
  | .int16 => [.int16]
  | _ => []

/-- The type is one of numbers. -/
def IsNumber (t : Ty) : Prop :=
  t = .int16 ∨ t = .int32 ∨ t = .int64 ∨ t = .double

theorem IsNumber.ne_unknown {t : Ty} (h : t.IsNumber) : t ≠ .unknown := by
  rcases h with rfl | rfl | rfl | rfl <;> exact Ty.noConfusion

theorem IsNumber.ne_enum {t : Ty} (h : t.IsNumber) (e : EnumType) : t ≠ .enum e := by
  rcases h with rfl | rfl | rfl | rfl <;> exact Ty.noConfusion

/-- Only numbers are taken in, and only by numbers. -/
theorem isNumber_of_mem_takesIn {s t : Ty} (h : t ∈ s.takesIn) : s.IsNumber ∧ t.IsNumber := by
  unfold takesIn at h
  split at h
  case h_5 => cases h
  all_goals
    simp only [List.mem_cons, List.not_mem_nil, or_false] at h
    refine ⟨by simp [IsNumber], ?_⟩
    rw [IsNumber]
    tauto

end Ty

/-! ## Calls -/

/-- What a method gives is one of the type of its call. -/
theorem Method.Gives.isA {m : Method} {name : String} {v : Value} (hm : ofName? name = some m)
    (h : m.Gives v) : v.isA (Expr.callTy name) = true := by
  have hty : Expr.callTy name = if m.isPredicate then .bool else .text := by
    simp only [Expr.callTy, hm]
  rw [Gives] at h
  rw [hty]
  split at h
  · rename_i hpredicate
    obtain ⟨b, rfl⟩ := h
    rw [if_pos hpredicate]
    rfl
  · rename_i hpredicate
    obtain ⟨s, rfl⟩ := h
    rw [if_neg hpredicate]
    rfl

/-! ## Expressions -/

namespace Expr

/-- The value of the expression, if it is not null, belongs to the type that is expected. -/
def TypedSoundly (e : Expr) : Prop :=
  ∀ v, e.evalConst = .ok v → v.isNull = false → v.Fits e.staticTy

/-- If the expression is a computation that gives something, the type that is expected is that of
what is computed, or unknown. -/
def ComputesTyped : Expr → Prop
  | binary (.compute op) lhs rhs =>
    ∀ a b v, lhs.evalConst = .ok a → rhs.evalConst = .ok b → Value.compute op a b = .ok v →
      v.isNull = false → (computedTy lhs.staticTy rhs.staticTy).core = .unknown ∨
        (computedTy lhs.staticTy rhs.staticTy).core = Value.resultTy op a b
  | _ => True

/-- A call that has a value is that of a method which gives the value. -/
theorem exists_gives_of_eval {target : Option Expr} {name : String} {args : List Expr} {v : Value}
    (h : (call target name args).evalConst = .ok v) :
    ∃ m, Method.ofName? name = some m ∧ m.Gives v := by
  cases target with
  | none =>
    rw [evalConst, eval] at h
    obtain ⟨m, hm, h⟩ := bind_eq_ok.1 h
    obtain ⟨values, -, h⟩ := bind_eq_ok.1 h
    refine ⟨m, (Method.resolve_eq_ok.1 hm).1, ?_⟩
    split at h
    · rename_i hstatic
      exact Method.runStatic_eq_ok hstatic h
    · cases h
  | some target =>
    rw [evalConst, eval] at h
    obtain ⟨m, hm, h⟩ := bind_eq_ok.1 h
    obtain ⟨values, -, h⟩ := bind_eq_ok.1 h
    refine ⟨m, (Method.resolve_eq_ok.1 hm).1, ?_⟩
    split at h
    · rename_i hstatic
      exact Method.runStatic_eq_ok hstatic h
    · obtain ⟨subject, -, h⟩ := bind_eq_ok.1 h
      obtain ⟨text, -, h⟩ := bind_eq_ok.1 h
      exact Method.run_eq_ok h

/-- A computation is typed soundly if the type expected is that of what is computed, or unknown. -/
theorem typedSoundly_compute_iff (op : Arithmetic) (lhs rhs : Expr) :
    (binary (.compute op) lhs rhs).TypedSoundly ↔ (binary (.compute op) lhs rhs).ComputesTyped := by
  have hvalue (v : Value) : (binary (.compute op) lhs rhs).evalConst = .ok v ↔
      ∃ a, lhs.evalConst = .ok a ∧ ∃ b, rhs.evalConst = .ok b ∧ Value.compute op a b = .ok v := by
    rw [evalConst, eval, bind_eq_ok]
    simp only [bind_eq_ok]
    rfl
  constructor
  · intro h a b v ha hb hv hnull
    obtain ⟨hty, henum, -, -⟩ := Value.ty_of_compute hv hnull
    rw [← hty, ← Value.fits_iff hnull henum]
    exact h v ((hvalue v).2 ⟨a, ha, b, hb, hv⟩) hnull
  · intro h v hcompute hnull
    obtain ⟨a, ha, b, hb, hv⟩ := (hvalue v).1 hcompute
    obtain ⟨hty, henum, -, -⟩ := Value.ty_of_compute hv hnull
    rw [Value.fits_iff hnull henum, hty]
    exact h a b v ha hb hv hnull

/-- The expression is a computation. -/
def isComputation : Expr → Bool
  | binary (.compute _) _ _ => true
  | _ => false

/-- The expression is a constant value of an enumeration. -/
def isCode : Expr → Bool
  | value v => v.isEnum
  | captured _ v => v.isEnum
  | _ => false

/-- The value of an expression that is neither a computation nor a constant of an enumeration is one
of the type that is expected. -/
theorem isA_of_eval {e : Expr} {v : Value} (hcompute : e.isComputation = false)
    (hcode : e.isCode = false) (h : e.evalConst = .ok v) (hnull : v.isNull = false) :
    e.staticTy.core = .unknown ∨ v.isA e.staticTy = true := by
  rcases e with _ | _ | _ | ⟨base, name, ty⟩ | e | ⟨e, ty⟩ | ⟨target, name, args⟩ |
    ⟨op | op | op, lhs, rhs⟩
  case row => cases h
  case value | captured =>
    cases h
    exact .inr (Value.isA_ty hcode)
  case field =>
    rw [evalConst, eval] at h
    split at h <;> cases h
  case not =>
    obtain ⟨a, -, h⟩ := bind_eq_ok.1 h
    obtain ⟨b, rfl⟩ := Value.negate_eq_ok h hnull
    exact .inr rfl
  case cast =>
    obtain ⟨a, -, h⟩ := bind_eq_ok.1 h
    exact Value.isA_of_cast_eq_ok h hnull
  case call =>
    obtain ⟨m, hm, hgives⟩ := exists_gives_of_eval h
    exact .inr (hgives.isA hm)
  case binary.compare | binary.connect =>
    obtain ⟨a, -, h⟩ := bind_eq_ok.1 h
    obtain ⟨b, -, h⟩ := bind_eq_ok.1 h
    obtain ⟨t, -, rfl⟩ := map_eq_ok.1 h
    exact .inr rfl
  case binary.compute => cases hcompute

/-- The value of an expression that is no computation belongs to the type that is expected. -/
theorem typedSoundly_of_isComputation {e : Expr} (h : e.isComputation = false) :
    e.TypedSoundly := by
  intro v hv hnull
  cases hcode : e.isCode with
  | true =>
    cases e with
    | value u | captured _ u =>
      cases hv
      exact v.fits_ty
    | _ => cases hcode
  | false => exact (isA_of_eval h hcode hv hnull).imp_right .inl

/-- The value of an expression belongs to the type that is expected, unless the expression is a
computation of something of another type. -/
theorem typedSoundly_iff (e : Expr) : e.TypedSoundly ↔ e.ComputesTyped := by
  rcases e with _ | _ | _ | _ | _ | _ | _ | ⟨op | op | op, lhs, rhs⟩
  case binary.compute => exact typedSoundly_compute_iff op lhs rhs
  all_goals exact iff_of_true (typedSoundly_of_isComputation rfl) trivial

/-- A sum of an integer of 16 bits and one of 32 bits. -/
def smallPlusWide : Expr :=
  binary (.compute .add) (value (.int16 1)) (value (.int32 2))

/-- The sum of an integer of 16 bits and one of 32 bits is expected to have 16 bits, and has 32. -/
theorem not_typedSoundly_smallPlusWide : ¬ smallPlusWide.TypedSoundly := by
  intro h
  have hfits : (Value.int32 3).Fits .int16 := h (.int32 3) (by decide +kernel) rfl
  rcases hfits with hunknown | hisA | ⟨henum, -⟩
  · cases hunknown
  · cases hisA
  · cases henum

/-! ## Operands that match -/

/-- The left operand is expected to be at least as wide as the right one, both being numbers, or
one of the two is expected to be a text, or nothing is expected.  Constants of an enumeration do
not count as numbers. -/
def matched : Expr → Bool
  | binary (.compute _) lhs rhs =>
    lhs.staticTy.isText || rhs.staticTy.isText ||
      (computedTy lhs.staticTy rhs.staticTy).core = .unknown ||
      rhs.staticTy.core ∈ lhs.staticTy.core.takesIn && !lhs.isCode && !rhs.isCode
  | _ => true

/-- An operand that is no constant of an enumeration has a value of the type that is expected, where
this is neither unknown nor an enumeration. -/
theorem ty_of_typedSoundly {e : Expr} {v : Value} (hsound : e.TypedSoundly)
    (hcode : e.isCode = false) (hunknown : e.staticTy.core ≠ .unknown)
    (henumeration : ∀ t, e.staticTy.core ≠ .enum t) (h : e.evalConst = .ok v)
    (hnull : v.isNull = false) : v.ty = e.staticTy.core ∧ v.isEnum = false := by
  cases hcompute : e.isComputation with
  | true =>
    rcases e with _ | _ | _ | _ | _ | _ | _ | ⟨op | op | op, lhs, rhs⟩
    case binary.compute =>
      obtain ⟨a, -, hrest⟩ := bind_eq_ok.1 h
      obtain ⟨b, -, hv⟩ := bind_eq_ok.1 hrest
      have henum := (Value.ty_of_compute hv hnull).2.1
      have hfits := (Value.fits_iff hnull henum _).1 (hsound v h hnull)
      exact ⟨(hfits.resolve_left hunknown).symm, henum⟩
    all_goals cases hcompute
  | false =>
    have hisA := (isA_of_eval hcompute hcode h hnull).resolve_left hunknown
    rw [← Value.isA_core hnull, Value.isA_eq (Ty.isOption_core _) henumeration, Bool.and_eq_true,
      Bool.not_eq_true', decide_eq_true_eq] at hisA
    exact ⟨hisA.2, hisA.1⟩

/-- A constant of an enumeration is expected to have 64 bits. -/
theorem isCode_eq_false {e : Expr} (h : e.staticTy.core ≠ .int64) : e.isCode = false := by
  cases e with
  | value v | captured _ v =>
    cases v with
    | enum value => exact absurd rfl h
    | _ => rfl
  | _ => rfl

/-- Operands of matching numbers are expected to give what they give. -/
theorem core_computedTy (op : Arithmetic) {s t : Ty} (h : t.core ∈ s.core.takesIn) :
    (computedTy s t).core =
      if op = .add ∧ (s.core = .text ∨ t.core = .text) then .text
      else if s.core = .double ∨ t.core = .double then .double
      else s.core.wider t.core := by
  have hunknown : s ≠ .unknown := by
    rintro rfl
    cases h
  have hleft : (computedTy s t).core =
      if s.core = .text ∨ t.core = .text then .text else s.core := by
    simp only [computedTy, Ty.isText, Bool.or_eq_true, decide_eq_true_eq, if_neg hunknown]
    split <;> rfl
  rw [hleft]
  obtain ⟨hs, ht⟩ := Ty.isNumber_of_mem_takesIn h
  rcases hs with hs | hs | hs | hs <;> rcases ht with ht | ht | ht | ht <;>
    simp [hs, ht, Ty.takesIn, Ty.wider] at h ⊢

/-- An operand that is expected to be a text is one. -/
theorem ty_eq_text_of_typedSoundly {e : Expr} {v : Value} (hsound : e.TypedSoundly)
    (htext : e.staticTy.isText = true) (h : e.evalConst = .ok v) (hnull : v.isNull = false) :
    v.ty = .text := by
  have hcore : e.staticTy.core = .text := of_decide_eq_true htext
  have hcode : e.isCode = false := isCode_eq_false (by simp [hcore])
  rw [← hcore]
  exact (ty_of_typedSoundly hsound hcode (by simp [hcore]) (by simp [hcore]) h hnull).1

/-- A computation with operands that match is expected to give what it gives. -/
theorem computesTyped_of_matched {op : Arithmetic} {lhs rhs : Expr} (hleft : lhs.TypedSoundly)
    (hright : rhs.TypedSoundly) (h : (binary (.compute op) lhs rhs).matched = true) :
    (binary (.compute op) lhs rhs).ComputesTyped := by
  intro a b v ha hb hv hnull
  obtain ⟨-, -, hanull, hbnull⟩ := Value.ty_of_compute hv hnull
  simp only [matched, Bool.or_eq_true, Bool.and_eq_true, Bool.not_eq_true', decide_eq_true_eq] at h
  rcases h with (htext | hunknown) | ⟨⟨hwide, hlcode⟩, hrcode⟩
  · right
    have hoperand : a.ty = .text ∨ b.ty = .text :=
      htext.imp (fun hl => ty_eq_text_of_typedSoundly hleft hl ha hanull)
        fun hr => ty_eq_text_of_typedSoundly hright hr hb hbnull
    rw [computedTy, if_pos (Bool.or_eq_true_iff.2 htext), Value.resultTy_of_text hv hnull hoperand]
    rfl
  · exact .inl hunknown
  · right
    obtain ⟨hs, ht⟩ := Ty.isNumber_of_mem_takesIn hwide
    obtain ⟨haty, haenum⟩ := ty_of_typedSoundly hleft hlcode hs.ne_unknown hs.ne_enum ha hanull
    obtain ⟨hbty, hbenum⟩ := ty_of_typedSoundly hright hrcode ht.ne_unknown ht.ne_enum hb hbnull
    rw [core_computedTy op hwide, Value.resultTy_eq op haenum hbenum, haty, hbty]

/-- Where the left operand of each computation is expected to be at least as wide as the right one,
the value of the expression belongs to the type that is expected. -/
theorem typedSoundly_of_matched {e : Expr} (h : ∀ node ∈ e.nodes, node.matched = true) :
    e.TypedSoundly := by
  induction e using childrenInduction with
  | node e ih =>
    have hself : e.matched = true := h e (nodes_eq e ▸ List.mem_cons_self)
    have hbelow : ∀ c ∈ e.children, c.TypedSoundly := fun c hc =>
      ih c hc fun node hnode => h node (mem_nodes_of_mem_children hc hnode)
    rcases e with _ | _ | _ | _ | _ | _ | _ | ⟨op | op | op, lhs, rhs⟩
    case binary.compute =>
      have hleft : lhs.TypedSoundly := hbelow lhs List.mem_cons_self
      have hright : rhs.TypedSoundly :=
        hbelow rhs (List.mem_cons_of_mem lhs (List.mem_singleton_self rhs))
      exact (typedSoundly_compute_iff op lhs rhs).2 (computesTyped_of_matched hleft hright hself)
    all_goals exact typedSoundly_of_isComputation rfl

end Expr

end RowQuery
