import RowQuery.Expr.Eval
import RowQuery.Proofs.Outcome

/-!
# Calls of methods

A call is of a method that takes its number of arguments.  What the method gives depends on the
method alone in kind: yes or no for a predicate, and a text for any other.

Main results:

- Theorem {lit}`resolve_eq_ok`: the method of a call.
- Theorems {lit}`run_eq_ok` and {lit}`runStatic_eq_ok`: the kind of what a method gives.
-/

namespace RowQuery.Method

open Outcome

/-- The method of a call is found by name and takes that number of arguments. -/
theorem resolve_eq_ok {name : String} {count : Nat} {m : Method} :
    resolve name count = .ok m ↔ ofName? name = some m ∧ m.accepts count = true := by
  rw [resolve]
  cases ofName? name with
  | none => simp
  | some found =>
    dsimp only
    split
    · rename_i haccepts
      simp only [Except.ok.injEq, Option.some.injEq]
      exact ⟨fun h => ⟨h, h ▸ haccepts⟩, fun h => h.1⟩
    · rename_i haccepts
      simp only [reduceCtorEq, Option.some.injEq, false_iff, not_and]
      intro h
      exact h ▸ haccepts

/-- The values that a method can give: truth values if it is a predicate, and else texts. -/
def Gives (m : Method) (v : Value) : Prop :=
  if m.isPredicate then ∃ b, v = .bool b else ∃ s, v = .text s

/-- A piece of a text is a text. -/
theorem piece_eq_ok {text : List Char} {start length : Nat} {v : Value}
    (h : piece text start length = .ok v) : ∃ s, v = .text s := by
  rw [piece] at h
  split at h
  · cases h
    exact ⟨_, rfl⟩
  · cases h

/-- What a method gives is of its kind. -/
theorem run_eq_ok {m : Method} {text : List Char} {args : List Value} {v : Value}
    (h : m.run text args = .ok v) : m.Gives v := by
  unfold run at h
  split at h
  case h_1 | h_2 | h_3 =>
    obtain ⟨pattern, -, h⟩ := bind_eq_ok.1 h
    cases h
    exact ⟨_, rfl⟩
  case h_4 | h_5 | h_6 =>
    cases h
    exact ⟨_, rfl⟩
  case h_7 =>
    obtain ⟨pattern, -, h⟩ := bind_eq_ok.1 h
    obtain ⟨new, -, h⟩ := bind_eq_ok.1 h
    cases h
    exact ⟨_, rfl⟩
  case h_8 =>
    obtain ⟨start, -, h⟩ := bind_eq_ok.1 h
    exact piece_eq_ok h
  case h_9 =>
    obtain ⟨start, -, h⟩ := bind_eq_ok.1 h
    obtain ⟨length, -, h⟩ := bind_eq_ok.1 h
    exact piece_eq_ok h
  case h_10 => cases h

/-- What a static method gives is of its kind. -/
theorem runStatic_eq_ok {m : Method} (hstatic : m.isStatic = true) {args : List Value} {v : Value}
    (h : m.runStatic args = .ok v) : m.Gives v := by
  obtain rfl : m = isNullOrEmpty := of_decide_eq_true hstatic
  unfold runStatic at h
  split at h
  case h_1 | h_2 =>
    cases h
    exact ⟨_, rfl⟩
  case h_3 | h_4 => cases h

end RowQuery.Method
