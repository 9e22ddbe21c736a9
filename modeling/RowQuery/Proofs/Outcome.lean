/-!
# Computations that succeed

Most computations of the library may end with a fault, and some carry a state along.  This
module says what a success of such a computation tells about its steps.

Main results:

- Theorems {lit}`bind_eq_ok` and {lit}`run_bind_eq_ok`: a sequence of two steps succeeds when
  both steps do.
- Theorems {lit}`run_pure_eq_ok`, {lit}`run_lift_eq_ok` and {lit}`run_throw_ne_ok`: the steps
  that leave the state as it is.
- Theorems {lit}`foldlM_ok` and {lit}`foldlM_error`: what one step over a list tells about all.
- Theorem {lit}`Agree.bind`: two computations that agree step by step agree.
- Theorems {lit}`mapM_eq_some_iff` and {lit}`mapM_eq_none_iff`: when all answers of a list are
  there.
-/

namespace RowQuery.Outcome

variable {σ ε α β γ : Type}

/-- Two steps succeed when the first does and the second does with its answer. -/
theorem bind_eq_ok {x : Except ε α} {f : α → Except ε β} {b : β} :
    x >>= f = .ok b ↔ ∃ a, x = .ok a ∧ f a = .ok b := by
  cases x with
  | error e => simp [bind, Except.bind]
  | ok a => simp [bind, Except.bind]

/-- A fault of the first of two steps is the fault of both. -/
theorem bind_eq_error {x : Except ε α} {e : ε} (h : x = .error e) (f : α → Except ε β) :
    x >>= f = .error e := by
  rw [h]
  rfl

/-- Two steps fail when the second does with every answer of the first. -/
theorem exists_bind_eq_error {x : Except ε α} {f : α → Except ε β}
    (h : ∀ a, x = .ok a → ∃ e, f a = .error e) : ∃ e, x >>= f = .error e := by
  cases hx : x with
  | error e => exact ⟨e, rfl⟩
  | ok a => exact h a hx

/-- A step whose answer is only changed succeeds when the step does. -/
theorem exists_bind_pure_eq_ok {x : Except ε α} {f : α → β} :
    (∃ b, (do return f (← x)) = .ok b) ↔ ∃ a, x = .ok a := by
  cases x with
  | error e => simp [bind, Except.bind]
  | ok a => simp [bind, Except.bind, pure, Except.pure]

/-- A changed answer is the change of an answer. -/
theorem map_eq_ok {x : Except ε α} {f : α → β} {b : β} :
    x.map f = .ok b ↔ ∃ a, x = .ok a ∧ f a = b := by
  cases x with
  | error e => simp [Except.map]
  | ok a => simp [Except.map]

/-- Two changes of an answer are one. -/
theorem map_map (f : α → β) (g : β → γ) (x : Except ε α) :
    (x.map f).map g = x.map fun a => g (f a) := by
  cases x <;> rfl

/-- Steps that all succeed succeed one after the other. -/
theorem foldlM_ok {step : β → α → Except ε β} {l : List α}
    (h : ∀ a ∈ l, ∀ b, ∃ b', step b a = .ok b') (b : β) : ∃ b', l.foldlM step b = .ok b' := by
  induction l generalizing b with
  | nil => exact ⟨b, rfl⟩
  | cons a rest ih =>
    obtain ⟨b₁, hstep⟩ := h a List.mem_cons_self b
    obtain ⟨b', hrest⟩ := ih (fun c hc => h c (List.mem_cons_of_mem a hc)) b₁
    refine ⟨b', ?_⟩
    rw [List.foldlM_cons, hstep]
    exact hrest

/-- Steps one of which fails in every state fail one after the other. -/
theorem foldlM_error {step : β → α → Except ε β} {l : List α} {a : α} (ha : a ∈ l)
    (h : ∀ b, ∃ e, step b a = .error e) (b : β) : ∃ e, l.foldlM step b = .error e := by
  induction l generalizing b with
  | nil => cases ha
  | cons a' rest ih =>
    rw [List.foldlM_cons]
    cases hstep : step b a' with
    | error e => exact ⟨e, rfl⟩
    | ok b₁ =>
      rcases List.mem_cons.1 ha with rfl | ha
      · obtain ⟨e, he⟩ := h b
        rw [he] at hstep
        cases hstep
      · exact ih ha b₁

/-- Two steps with a state succeed when the first does and the second does from where the first
ends. -/
theorem run_bind_eq_ok {x : StateT σ (Except ε) α} {f : α → StateT σ (Except ε) β} {s t : σ}
    {b : β} :
    (x >>= f).run s = .ok (b, t) ↔ ∃ a u, x.run s = .ok (a, u) ∧ (f a).run u = .ok (b, t) := by
  rw [StateT.run_bind, bind_eq_ok]
  exact ⟨fun ⟨p, hx, hf⟩ => ⟨p.1, p.2, hx, hf⟩, fun ⟨a, u, hx, hf⟩ => ⟨(a, u), hx, hf⟩⟩

/-- A plain answer leaves the state as it is. -/
theorem run_pure_eq_ok {s t : σ} {a b : α} :
    (pure a : StateT σ (Except ε) α).run s = .ok (b, t) ↔ a = b ∧ s = t := by
  rw [StateT.run_pure]
  simp only [pure, Except.pure, Except.ok.injEq, Prod.mk.injEq]

/-- A step without a state leaves the state as it is. -/
theorem run_lift_eq_ok {x : Except ε α} {s t : σ} {b : α} :
    (liftM x : StateT σ (Except ε) α).run s = .ok (b, t) ↔ x = .ok b ∧ s = t := by
  change (StateT.lift x).run s = _ ↔ _
  rw [StateT.run_lift, bind_eq_ok]
  constructor
  · rintro ⟨a, hx, ha⟩
    cases ha
    exact ⟨hx, rfl⟩
  · rintro ⟨rfl, rfl⟩
    exact ⟨b, rfl, rfl⟩

/-- A fault is no success. -/
theorem run_throw_ne_ok {s t : σ} {e : ε} {b : α} :
    (throw e : StateT σ (Except ε) α).run s ≠ .ok (b, t) := by
  intro h
  cases h

/-! ## Two computations -/

/-- Two computations fail with the same fault, or succeed with answers that are related. -/
inductive Agree (rel : α → β → Prop) : Except ε α → Except ε β → Prop
  | error (e : ε) : Agree rel (.error e) (.error e)
  | ok {a : α} {b : β} (h : rel a b) : Agree rel (.ok a) (.ok b)

/-- A computation agrees with itself. -/
theorem Agree.refl {rel : α → α → Prop} (h : ∀ a, rel a a) (x : Except ε α) : Agree rel x x := by
  cases x with
  | error e => exact .error e
  | ok a => exact .ok (h a)

/-- Two computations agree when their first steps do, and their second ones on related answers. -/
theorem Agree.bind {δ : Type} {rel : α → β → Prop} {rel' : γ → δ → Prop} {x : Except ε α}
    {y : Except ε β} {f : α → Except ε γ} {g : β → Except ε δ} (h : Agree rel x y)
    (hf : ∀ a b, rel a b → Agree rel' (f a) (g b)) : Agree rel' (x >>= f) (y >>= g) := by
  cases h with
  | error e => exact .error e
  | ok h => exact hf _ _ h

/-- Two computations whose answers are changed agree when they did before. -/
theorem Agree.map {δ : Type} {rel : α → β → Prop} {rel' : γ → δ → Prop} {x : Except ε α}
    {y : Except ε β} {f : α → γ} {g : β → δ} (h : Agree rel x y)
    (hf : ∀ a b, rel a b → rel' (f a) (g b)) : Agree rel' (x.map f) (y.map g) := by
  cases h with
  | error e => exact .error e
  | ok h => exact .ok (hf _ _ h)

/-- Two computations agree in a weaker sense as well. -/
theorem Agree.imp {rel rel' : α → β → Prop} {x : Except ε α} {y : Except ε β} (h : Agree rel x y)
    (himp : ∀ a b, rel a b → rel' a b) : Agree rel' x y := by
  cases h with
  | error e => exact .error e
  | ok h => exact .ok (himp _ _ h)

/-- Two computations that agree on equal answers are the same. -/
theorem Agree.eq {x y : Except ε α} (h : Agree Eq x y) : x = y := by
  cases h with
  | error e => rfl
  | ok h => rw [h]

/-! ## Lists of computations -/

/-- Two steps give an answer where the second gives one from the answer of the first. -/
theorem toOption_bind (x : Except ε α) (f : α → Except ε β) :
    (x >>= f).toOption = x.toOption.bind fun a => (f a).toOption := by
  cases x <;> rfl

/-- A list of computations succeeds where each of them does. -/
theorem toOption_mapM (f : α → Except ε β) (l : List α) :
    (l.mapM f).toOption = l.mapM fun a => (f a).toOption := by
  induction l with
  | nil => rfl
  | cons a rest ih =>
    rw [List.mapM_cons, List.mapM_cons, toOption_bind, ← ih]
    cases f a with
    | error e => rfl
    | ok b => cases rest.mapM f <;> rfl

/-- Only the answers for the elements of a list matter. -/
theorem mapM_congr {m : Type → Type} [Monad m] [LawfulMonad m] {f g : α → m β} {l : List α}
    (h : ∀ a ∈ l, f a = g a) : l.mapM f = l.mapM g := by
  induction l with
  | nil => rfl
  | cons a rest ih =>
    rw [List.mapM_cons, List.mapM_cons, h a List.mem_cons_self,
      ih fun b hb => h b (List.mem_cons_of_mem a hb)]

/-- Only the steps for the elements of a list matter. -/
theorem foldlM_congr {m : Type → Type} [Monad m] [LawfulMonad m] {f g : β → α → m β} {l : List α}
    (h : ∀ a ∈ l, ∀ b, f b a = g b a) (b : β) : l.foldlM f b = l.foldlM g b := by
  induction l generalizing b with
  | nil => rfl
  | cons a rest ih =>
    rw [List.foldlM_cons, List.foldlM_cons, h a List.mem_cons_self b]
    exact congrArg (g b a >>= ·)
      (funext fun c => ih (fun a' ha' => h a' (List.mem_cons_of_mem a ha')) c)

/-- All answers are there exactly if each of them is. -/
theorem mapM_eq_some_iff {f : α → Option β} {l : List α} {answers : List β} :
    l.mapM f = some answers ↔ l.map f = answers.map some := by
  induction l generalizing answers with
  | nil => cases answers <;> simp
  | cons a rest ih =>
    rw [List.mapM_cons, Option.bind_eq_bind, Option.bind_eq_some_iff]
    cases answers with
    | nil => simp [Option.bind_eq_some_iff]
    | cons b others =>
      simp only [Option.bind_eq_bind, Option.bind_eq_some_iff, Option.pure_def, Option.some.injEq,
        List.cons.injEq, List.map_cons, ← ih]
      constructor
      · rintro ⟨b', hfirst, others', hrest, rfl, rfl⟩
        exact ⟨hfirst, hrest⟩
      · rintro ⟨hfirst, hrest⟩
        exact ⟨b, hfirst, others, hrest, rfl, rfl⟩

/-- A list of computations succeeds with the answers of all of them. -/
theorem mapM_eq_ok_iff {f : α → Except ε β} {l : List α} {answers : List β} :
    l.mapM f = .ok answers ↔ l.map f = answers.map .ok := by
  induction l generalizing answers with
  | nil =>
    rw [List.mapM_nil, List.map_nil]
    cases answers <;> simp [pure, Except.pure]
  | cons a rest ih =>
    rw [List.mapM_cons, List.map_cons, bind_eq_ok]
    constructor
    · rintro ⟨first, hfirst, h⟩
      obtain ⟨others, hothers, h⟩ := bind_eq_ok.1 h
      cases h
      rw [hfirst, ih.1 hothers, List.map_cons]
    · intro h
      cases answers with
      | nil => cases h
      | cons first others =>
        rw [List.map_cons, List.cons.injEq] at h
        exact ⟨first, h.1, bind_eq_ok.2 ⟨others, ih.2 h.2, rfl⟩⟩

/-- Each of the answers is the answer for an element. -/
theorem exists_of_mem_mapM {f : α → Except ε β} {l : List α} {answers : List β}
    (h : l.mapM f = .ok answers) {b : β} (hb : b ∈ answers) : ∃ a ∈ l, f a = .ok b := by
  have hmem : .ok b ∈ l.map f := by
    rw [mapM_eq_ok_iff.1 h]
    exact List.mem_map_of_mem hb
  exact List.mem_map.1 hmem

/-- One answer is missing if not all of them are there. -/
theorem mapM_eq_none_iff {f : α → Option β} {l : List α} :
    l.mapM f = none ↔ ∃ a ∈ l, f a = none := by
  induction l with
  | nil => simp
  | cons a rest ih =>
    cases hfirst : f a with
    | none => simp [List.mapM_cons, hfirst]
    | some b =>
      cases hrest : rest.mapM f with
      | none => simp [List.mapM_cons, hfirst, hrest, ← ih]
      | some others => simp [List.mapM_cons, hfirst, hrest, ← ih]

/-- Pairs of a name and an answer are made of all answers. -/
theorem map_zip_mapM (name : α → γ) (f : α → Option β) (l : List α) :
    (l.mapM f).map ((l.map name).zip ·) = l.mapM fun a => (f a).map fun b => (name a, b) := by
  induction l with
  | nil => rfl
  | cons a rest ih =>
    rw [List.mapM_cons, List.mapM_cons, ← ih]
    cases f a with
    | none => rfl
    | some b => cases rest.mapM f <;> rfl

/-- Where answers are missing in one list only if they are in another one, all answers agree exactly
if one is missing in both or each is the same. -/
theorem mapM_eq_mapM_iff {f g : α → Option β} {l : List α}
    (h : ∀ a ∈ l, g a = none → f a = none) :
    l.mapM f = l.mapM g ↔ (∃ a ∈ l, g a = none) ∨ ∀ a ∈ l, f a = g a := by
  cases hg : l.mapM g with
  | none =>
    have hmissing := mapM_eq_none_iff.1 hg
    have hboth : ∃ a ∈ l, f a = none := by
      rcases hmissing with ⟨a, ha, hnone⟩
      exact ⟨a, ha, h a ha hnone⟩
    simp only [mapM_eq_none_iff.2 hboth, hmissing, true_or]
  | some answers =>
    have hthere : ¬ ∃ a ∈ l, g a = none := by
      rw [← mapM_eq_none_iff, hg]
      exact nofun
    rw [mapM_eq_some_iff, ← mapM_eq_some_iff.1 hg, List.map_inj_left]
    simp only [hthere, false_or]

end RowQuery.Outcome
