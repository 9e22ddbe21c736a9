import RowQuery.Proofs.Outcome
import RowQuery.Sql.Select

/-!
# Clauses that are given once

A selection is put together step by step, and each step gives one clause.  A clause that was
given stays as it is: to give it again is refused and changes nothing.  So the selection, and
with it the statement for every dialect, depends on the first value of each clause alone and not
on the order of the steps.

Main results:

- Definition {lit}`Select.after`: the selection behind a list of steps, of which some may have been
  refused.
- Theorem {lit}`Select.held_attempt`: what one step leaves behind in each clause.
- Theorem {lit}`Select.held_after`: what all steps leave behind.
- Theorem {lit}`Select.after_eq_of_perm`: the order of steps about different
  clauses does not matter.
- Theorem {lit}`Select.givenOnce`: which steps are refused, and on what the statement depends.
-/

namespace RowQuery.Sql

open Outcome

namespace Select

/-! ## Steps -/

/-- The clauses that are given step by step. -/
inductive Slot where
  | filter
  | grouping
  | ordering
  | skip
  | take
  deriving DecidableEq, Repr

namespace Slot

/-- What a clause is given as. -/
abbrev Value : Slot → Type
  | filter => Condition
  | grouping => String
  | ordering => String
  | skip => UInt64
  | take => UInt64

/-- How a clause is called when it is refused. -/
def label : Slot → String
  | filter => "WHERE"
  | grouping => "GROUP BY"
  | ordering => "ORDER BY"
  | skip => "SKIP"
  | take => "TAKE"

end Slot

/-- One step.  Groupings and orderings may be written with their keyword. -/
inductive Step where
  | filter (c : Condition)
  | grouping (text : String)
  | ordering (text : String)
  | skip (count : UInt64)
  | take (count : UInt64)
  deriving DecidableEq

namespace Step

/-- The clause that a step gives. -/
def slot : Step → Slot
  | filter _ => .filter
  | grouping _ => .grouping
  | ordering _ => .ordering
  | skip _ => .skip
  | take _ => .take

/-- What a step gives to a clause, if it is the one that the step is about. -/
def value? (step : Step) (k : Slot) : Option k.Value :=
  match step, k with
  | filter c, .filter => some c
  | grouping text, .grouping => some (Clause.grouping.strip text)
  | ordering text, .ordering => some (Clause.ordering.strip text)
  | skip count, .skip => some count
  | take count, .take => some count
  | _, _ => none

/-- A step gives something to its own clause and to no other. -/
theorem isSome_value? (step : Step) (k : Slot) :
    (step.value? k).isSome = true ↔ step.slot = k := by
  cases step <;> cases k <;> simp [value?, slot]

/-- A step gives nothing to another clause. -/
theorem value?_of_ne (step : Step) {k : Slot} (h : step.slot ≠ k) : step.value? k = none :=
  Option.not_isSome_iff_eq_none.1 (mt (isSome_value? step k).1 h)

end Step

/-- Gives a clause, unless it was given before. -/
def give (s : Select) : Step → Except Fault Select
  | .filter c => s.setFilter c
  | .grouping text => s.setGrouping text
  | .ordering text => s.setOrdering text
  | .skip count => s.setSkip count
  | .take count => s.setTake count

/-- The selection behind a step; it is as before if the step is refused. -/
def attempt (s : Select) (step : Step) : Select :=
  match s.give step with
  | .ok s' => s'
  | .error _ => s

/-- The selection behind a list of steps. -/
def after (s : Select) (steps : List Step) : Select :=
  steps.foldl attempt s

/-- What a clause of a selection was given as, if it was given. -/
def held (s : Select) : (k : Slot) → Option k.Value
  | .filter => s.filter
  | .grouping => s.grouping
  | .ordering => s.ordering
  | .skip => s.skip
  | .take => s.take

/-- Nothing is given in the beginning. -/
theorem held_of (columns source : String) (k : Slot) : (of columns source).held k = none := by
  cases k <;> rfl

/-- A selection is determined by its columns, its source and its clauses. -/
theorem eq_of_held {s s' : Select} (hcolumns : s.columns = s'.columns)
    (hsource : s.source = s'.source) (h : ∀ k, s.held k = s'.held k) : s = s' := by
  cases s
  cases s'
  simp only [mk.injEq]
  exact ⟨hcolumns, hsource, h .filter, h .grouping, h .ordering, h .skip, h .take⟩

/-! ## One step -/

/-- An empty slot is filled. -/
theorem fillOnce_none {α : Type} (label : String) (a : α) :
    fillOnce label none a = .ok (some a) := rfl

/-- A slot that is filled refuses another value. -/
theorem fillOnce_of_isSome {α : Type} {slot : Option α} (h : slot.isSome = true) (label : String)
    (a : α) : fillOnce label slot a = .error (Fault.of (.alreadyConfigured label)) := by
  obtain ⟨b, rfl⟩ := Option.isSome_iff_exists.1 h
  rfl

variable {s : Select} {step : Step}

/-- A clause that was given is refused. -/
theorem give_of_held (h : (s.held step.slot).isSome = true) :
    s.give step = .error (Fault.of (.alreadyConfigured step.slot.label)) := by
  cases step with
  | filter c =>
    have h : s.filter.isSome = true := h
    rw [give, setFilter, fillOnce_of_isSome h]
    rfl
  | grouping text =>
    have h : s.grouping.isSome = true := h
    rw [give, setGrouping, fillOnce_of_isSome h]
    rfl
  | ordering text =>
    have h : s.ordering.isSome = true := h
    rw [give, setOrdering, fillOnce_of_isSome h]
    rfl
  | skip count =>
    have h : s.skip.isSome = true := h
    rw [give, setSkip, fillOnce_of_isSome h]
    rfl
  | take count =>
    have h : s.take.isSome = true := h
    rw [give, setTake, fillOnce_of_isSome h]
    rfl

/-- A clause that was not given takes the value of the step, and all else stays as it is. -/
theorem give_of_not_held (h : s.held step.slot = none) :
    ∃ s', s.give step = .ok s' ∧ s'.columns = s.columns ∧ s'.source = s.source ∧
      ∀ k, s'.held k = (s.held k).or (step.value? k) := by
  cases step with
  | filter c =>
    have h : s.filter = none := h
    refine ⟨{ s with filter := some c }, ?_, rfl, rfl, fun k => ?_⟩
    · rw [give, setFilter, h, fillOnce_none]
      rfl
    · cases k <;> simp [held, Step.value?, h]
  | grouping text =>
    have h : s.grouping = none := h
    refine ⟨{ s with grouping := some (Clause.grouping.strip text) }, ?_, rfl, rfl, fun k => ?_⟩
    · rw [give, setGrouping, h, fillOnce_none]
      rfl
    · cases k <;> simp [held, Step.value?, h]
  | ordering text =>
    have h : s.ordering = none := h
    refine ⟨{ s with ordering := some (Clause.ordering.strip text) }, ?_, rfl, rfl, fun k => ?_⟩
    · rw [give, setOrdering, h, fillOnce_none]
      rfl
    · cases k <;> simp [held, Step.value?, h]
  | skip count =>
    have h : s.skip = none := h
    refine ⟨{ s with skip := some count }, ?_, rfl, rfl, fun k => ?_⟩
    · rw [give, setSkip, h, fillOnce_none]
      rfl
    · cases k <;> simp [held, Step.value?, h]
  | take count =>
    have h : s.take = none := h
    refine ⟨{ s with take := some count }, ?_, rfl, rfl, fun k => ?_⟩
    · rw [give, setTake, h, fillOnce_none]
      rfl
    · cases k <;> simp [held, Step.value?, h]

/-- A step is refused if and only if its clause was given. -/
theorem give_eq_error_iff (f : Fault) :
    s.give step = .error f ↔ (s.held step.slot).isSome = true ∧
      f = Fault.of (.alreadyConfigured step.slot.label) := by
  by_cases h : (s.held step.slot).isSome = true
  · simp [give_of_held h, h, eq_comm]
  · obtain ⟨s', hs', -⟩ := give_of_not_held (Option.not_isSome_iff_eq_none.1 h)
    simp [hs', h]

/-- What a step leaves behind: each clause is what it was before, or what the step gives to it. -/
theorem held_attempt (s : Select) (step : Step) (k : Slot) :
    (s.attempt step).held k = (s.held k).or (step.value? k) := by
  by_cases h : (s.held step.slot).isSome = true
  · -- the step is refused, and what it would give is to a clause that is given
    rw [attempt, give_of_held h]
    by_cases hk : step.slot = k
    · rw [← hk, Option.or_of_isSome h]
    · rw [step.value?_of_ne hk, Option.or_none]
  · obtain ⟨s', hs', -, -, hheld⟩ := give_of_not_held (Option.not_isSome_iff_eq_none.1 h)
    rw [attempt, hs']
    exact hheld k

/-- A step leaves the columns and the source as they are. -/
theorem kept_attempt (s : Select) (step : Step) :
    (s.attempt step).columns = s.columns ∧ (s.attempt step).source = s.source := by
  by_cases h : (s.held step.slot).isSome = true
  · rw [attempt, give_of_held h]
    exact ⟨rfl, rfl⟩
  · obtain ⟨s', hs', hcolumns, hsource, -⟩ :=
      give_of_not_held (Option.not_isSome_iff_eq_none.1 h)
    rw [attempt, hs']
    exact ⟨hcolumns, hsource⟩

/-! ## All steps -/

/-- What a list of steps leaves behind: each clause is what it was before, or what the first step
about it gives. -/
theorem held_after (s : Select) (steps : List Step) (k : Slot) :
    (s.after steps).held k = (s.held k).or (steps.findSome? (·.value? k)) := by
  induction steps generalizing s with
  | nil => simp [after]
  | cons step steps ih =>
    calc ((s.attempt step).after steps).held k
        = ((s.attempt step).held k).or (steps.findSome? (·.value? k)) := ih _
      _ = ((s.held k).or (step.value? k)).or (steps.findSome? (·.value? k)) := by
          rw [held_attempt]
      _ = (s.held k).or ((step.value? k).or (steps.findSome? (·.value? k))) := Option.or_assoc
      _ = (s.held k).or ((step :: steps).findSome? (·.value? k)) := by
          rw [List.findSome?_cons]
          cases step.value? k <;> rfl

/-- The columns and the source stay as they are. -/
theorem kept_after (s : Select) (steps : List Step) :
    (s.after steps).columns = s.columns ∧ (s.after steps).source = s.source := by
  induction steps generalizing s with
  | nil => exact ⟨rfl, rfl⟩
  | cons step steps ih =>
    have hstep := kept_attempt s step
    have hrest := ih (s.attempt step)
    exact ⟨hrest.1.trans hstep.1, hrest.2.trans hstep.2⟩

/-- Behind the steps a clause is given if and only if one of them was about it. -/
theorem isSome_held_after_of (columns source : String) (steps : List Step) (k : Slot) :
    (((of columns source).after steps).held k).isSome = true ↔ ∃ step ∈ steps, step.slot = k := by
  rw [held_after, held_of, Option.none_or, List.findSome?_isSome_iff]
  simp only [Step.isSome_value?]

/-- Two lists of steps that give the same first value to every clause leave the same selection
behind. -/
theorem after_eq_of_first {steps steps' : List Step}
    (h : ∀ k : Slot, steps.findSome? (·.value? k) = steps'.findSome? (·.value? k)) (s : Select) :
    s.after steps = s.after steps' := by
  refine eq_of_held ?_ ?_ fun k => ?_
  · rw [(kept_after s steps).1, (kept_after s steps').1]
  · rw [(kept_after s steps).2, (kept_after s steps').2]
  · rw [held_after, held_after, h k]

/-- If steps are about different clauses, their order does not matter. -/
theorem after_eq_of_perm {steps steps' : List Step} (hperm : steps.Perm steps')
    (hdistinct : (steps.map Step.slot).Nodup) (s : Select) : s.after steps = s.after steps' := by
  refine after_eq_of_first (fun k => ?_) s
  induction hperm with
  | nil => rfl
  | cons step _ ih =>
    rw [List.findSome?_cons, List.findSome?_cons, ih (List.nodup_cons.1 hdistinct).2]
  | swap step step' rest =>
    have hne : step'.slot ≠ step.slot := by
      simp only [List.map_cons, List.nodup_cons, List.mem_cons, not_or] at hdistinct
      exact hdistinct.1.1
    -- one of the two steps is not about the clause
    simp only [List.findSome?_cons]
    by_cases hk : step.slot = k
    · rw [step'.value?_of_ne fun hk' => hne (hk'.trans hk.symm)]
    · rw [step.value?_of_ne hk]
  | trans hfirst _ ih ih' =>
    exact (ih hdistinct).trans (ih' ((hfirst.map _).nodup hdistinct))

/-- If a list of steps has one about a clause, the first such step is accepted. -/
theorem exists_accepted {columns source : String} {front : List Step} {k : Slot}
    (h : (((of columns source).after front).held k).isSome = true) :
    ∃ before earlier between, front = before ++ earlier :: between ∧ earlier.slot = k ∧
      ∃ s, ((of columns source).after before).give earlier = .ok s := by
  rw [held_after, held_of, Option.none_or] at h
  obtain ⟨v, hv⟩ := Option.isSome_iff_exists.1 h
  obtain ⟨before, earlier, between, hfront, hvalue, hbefore⟩ := List.findSome?_eq_some_iff.1 hv
  have hslot : earlier.slot = k := (Step.isSome_value? earlier k).1 (by simp [hvalue])
  have hnone : ((of columns source).after before).held earlier.slot = none := by
    rw [held_after, held_of, Option.none_or, List.findSome?_eq_none_iff, hslot]
    exact hbefore
  obtain ⟨s, hs, -⟩ := give_of_not_held hnone
  exact ⟨before, earlier, between, hfront, hslot, s, hs⟩

/-! ## The builder -/

/-- Each clause is given once: a step is refused if and only if an earlier one gave the same clause,
and behind all steps the first value of each clause stands.  The statement for a dialect, or the
fault, is determined by these values. -/
structure GivenOnce (start : Select) : Prop where
  /-- A step is refused if and only if its clause was given by an earlier one. -/
  refused (front : List Step) (step : Step) (f : Fault) :
    (start.after front).give step = .error f ↔
      f = Fault.of (.alreadyConfigured step.slot.label) ∧
        ∃ before earlier between, front = before ++ earlier :: between ∧
          earlier.slot = step.slot ∧ ∃ s, (start.after before).give earlier = .ok s
  /-- A clause holds the first value that a step gives to it. -/
  first (steps : List Step) (k : Slot) :
    (start.after steps).held k = steps.findSome? (·.value? k)
  /-- The outcome for a dialect is the same for all steps with the same first values. -/
  statement_eq (steps steps' : List Step)
    (h : ∀ k : Slot, steps.findSome? (·.value? k) = steps'.findSome? (·.value? k)) (d : Dialect) :
    (start.after steps).statement d = (start.after steps').statement d

/-- Whatever the steps are, each clause of a selection is given once, and the statement does not
depend on their order. -/
theorem givenOnce (columns source : String) : GivenOnce (of columns source) where
  refused front step f := by
    rw [give_eq_error_iff, and_comm]
    refine and_congr_right fun _ => ⟨exists_accepted, ?_⟩
    rintro ⟨before, earlier, between, rfl, hslot, -⟩
    exact (isSome_held_after_of ..).2 ⟨earlier, by simp, hslot⟩
  first steps k := by
    rw [held_after, held_of, Option.none_or]
  statement_eq steps steps' h d := by
    rw [after_eq_of_first h]

end Select

end RowQuery.Sql
