import RowQuery.Fault

/-!
# Context of faults

A fault that is put under another one keeps its whole chain.  The other one stays the outermost link
with its kind if it has no causes and nobody else holds it; else a plain link takes its place.  So a
fault that gets context again and again, each time from a single link, tells all of it from the last
to the first, and then itself.

Main results:

- Theorems {lit}`causes_under` and {lit}`message_under`: what lies behind the new outermost link.
- Theorem {lit}`Recipe.message_of_flat`: the wording of a fault that got
  context any number of times.
- Theorem {lit}`keepsContext`: what is kept when a fault is put under another one.
-/

namespace RowQuery.Fault

/-! ## Adding context once -/

/-- A link in front of a fault is worded in front of it. -/
theorem message_context (f : Fault) (link : Link) :
    (f.context link).message = link.text ++ ": " ++ f.message :=
  String.intercalate_cons_cons

/-- The whole fault that is put under another one lies behind the outermost link. -/
theorem causes_under (f outer : Fault) (held : Bool) : (f.under outer held).causes = f.links := by
  rw [under]
  split <;> rfl

/-- The outermost link: that of the other fault, or a plain one with its wording. -/
theorem head_under (f outer : Fault) (held : Bool) :
    (f.under outer held).head =
      if outer.causes.isEmpty && !held then outer.head else .plain outer.head.text := by
  rw [under]
  split <;> rfl

/-- The wording of the new outermost link stands in front of that of the fault below. -/
theorem message_under (f outer : Fault) (held : Bool) :
    (f.under outer held).message = (f.under outer held).head.text ++ ": " ++ f.message := by
  rw [under]
  split <;> exact message_context f _

/-- A fault without causes is worded like its only link. -/
theorem message_of_causes_eq_nil {f : Fault} (h : f.causes = []) : f.message = f.head.text := by
  rw [message, links, h]
  exact String.intercalate_singleton

/-- A fault without causes is worded in full in front of another one, held elsewhere or not. -/
theorem message_under_of_causes_eq_nil {outer : Fault} (h : outer.causes = []) (f : Fault)
    (held : Bool) : (f.under outer held).message = outer.message ++ ": " ++ f.message := by
  have htext : (f.under outer held).head.text = outer.head.text := by
    rw [head_under]
    split <;> rfl
  rw [message_under, htext, message_of_causes_eq_nil h]

/-! ## Adding context again and again -/

/-- How a fault is put together: it is a single link, or one fault put under another, which may be
held elsewhere. -/
inductive Recipe where
  | link (l : Link)
  | under (inner outer : Recipe) (held : Bool)

namespace Recipe

/-- The fault that is put together. -/
def fault : Recipe → Fault
  | link l => of l
  | under inner outer held => inner.fault.under outer.fault held

/-- The wordings of all links that went in, outermost first. -/
def texts : Recipe → List String
  | link l => [l.text]
  | under inner outer _ => outer.texts ++ inner.texts

/-- Faults are put under others only if those have no causes. -/
def Flat : Recipe → Prop
  | link _ => True
  | under inner outer _ => inner.Flat ∧ outer.fault.causes = []

/-- Every fault can be put together. -/
theorem exists_fault_eq (f : Fault) : ∃ r : Recipe, r.fault = f := by
  obtain ⟨head, causes⟩ := f
  induction causes generalizing head with
  | nil => exact ⟨link head, rfl⟩
  | cons next rest ih =>
    obtain ⟨inner, hinner⟩ := ih next
    refine ⟨under inner (link head) false, ?_⟩
    rw [fault, hinner]
    rfl

/-- A fault without causes was not put together from others. -/
theorem eq_link_of_causes_eq_nil {r : Recipe} (h : r.fault.causes = []) : ∃ l, r = link l := by
  cases r with
  | link l => exact ⟨l, rfl⟩
  | under inner outer held =>
    rw [fault, causes_under] at h
    cases h

theorem texts_ne_nil (r : Recipe) : r.texts ≠ [] := by
  induction r with
  | link l => exact List.cons_ne_nil _ _
  | under inner outer held ihInner _ => exact List.append_ne_nil_of_right_ne_nil _ ihInner

/-- A fault that got all its context from single links is worded by all that went in. -/
theorem message_of_flat {r : Recipe} (h : r.Flat) :
    r.fault.message = ": ".intercalate r.texts := by
  induction r with
  | link l => rfl
  | under inner outer held ihInner _ =>
    obtain ⟨hinner, houter⟩ := h
    have hmessage := message_under_of_causes_eq_nil houter inner.fault held
    obtain ⟨l, rfl⟩ := eq_link_of_causes_eq_nil houter
    have hlink : (link l).fault.message = ": ".intercalate (link l).texts := rfl
    calc (under inner (link l) held).fault.message
        = (link l).fault.message ++ ": " ++ inner.fault.message := hmessage
      _ = ": ".intercalate (link l).texts ++ ": " ++ ": ".intercalate inner.texts := by
          rw [hlink, ihInner hinner]
      _ = ": ".intercalate (under inner (link l) held).texts :=
          (String.intercalate_append_of_ne_nil (texts_ne_nil _) (texts_ne_nil _)).symm

end Recipe

/-! ## The whole -/

/-- What is kept of two faults when the first is put under the second, which
may be held elsewhere. -/
structure KeepsContext (f outer : Fault) (held : Bool) : Prop where
  /-- The whole first fault is the cause of the outermost link. -/
  causes : (f.under outer held).causes = f.links
  /-- The outermost link is worded in front of the first fault. -/
  front : (f.under outer held).message = (f.under outer held).head.text ++ ": " ++ f.message
  /-- A second fault without causes is worded in full, whether or not it is held elsewhere. -/
  text : outer.causes = [] → (f.under outer held).message = outer.message ++ ": " ++ f.message
  /-- A second fault without causes that nobody else holds keeps its kind. -/
  kind : outer.causes = [] → held = false → (f.under outer held).kind = outer.kind
  /-- A second fault that is held elsewhere or has causes becomes a plain message, which starts with
  the wording of its outermost link. -/
  rebuilt : outer.causes ≠ [] ∨ held = true → ∃ shown, (f.under outer held).head = .plain shown ∧
    outer.head.text.toList <+: shown.toList

/-- The context of a fault, whatever the two faults are made of and whether or not the
second is held elsewhere. -/
theorem keepsContext (f outer : Fault) (held : Bool) : KeepsContext f outer held := by
  refine ⟨causes_under f outer held, message_under f outer held,
    fun hcauses => message_under_of_causes_eq_nil hcauses f held, fun hcauses hheld => ?_,
    fun hrebuilt => ⟨outer.head.text, ?_, List.prefix_rfl⟩⟩
  · rw [kind, head_under, hcauses, hheld]
    rfl
  · have hnot : (outer.causes.isEmpty && !held) = false := by
      rcases hrebuilt with hne | hheld
      · rw [List.isEmpty_eq_false_iff.2 hne, Bool.false_and]
      · rw [hheld, Bool.not_true, Bool.and_false]
    rw [head_under, hnot]
    rfl

/-- A refused query that is held elsewhere does not stay the outermost kind. -/
theorem kind_under_held_ne :
    ((of (.plain "inner")).under (invalidQuery (.described "outer")) true).kind ≠
      (invalidQuery (.described "outer")).kind := by
  decide

end RowQuery.Fault
