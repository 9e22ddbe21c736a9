import RowQuery.Proofs.Sql.TermText

/-!
# Parentheses in the text of a term

A text is balanced if it closes every parenthesis that it opens and none that it does not open.
What is balanced stays so inside of parentheses and next to other balanced texts, and the text of
a term is made of such pieces only.

Main results:

- Definition {lit}`openBehind`: how many parentheses are open behind a text.
- Theorems {lit}`Balanced.append` and {lit}`Balanced.enclosed`: how balanced texts are put together.
- Theorems {lit}`Term.balanced_text` and {lit}`Term.balanced_body`: the text of a term is balanced,
  and so is what stands inside of its parentheses.
-/

namespace RowQuery.Sql

/-! ## Counting open parentheses -/

/-- The number of parentheses that are open behind a text, where {lit}`depth` are open in front of
it; none if the text closes one that is not open. -/
def openBehind (depth : Nat) : List Char → Option Nat
  | [] => some depth
  | c :: rest =>
    if c = '(' then openBehind (depth + 1) rest
    else if c = ')' then
      if depth = 0 then none else openBehind (depth - 1) rest
    else openBehind depth rest

/-- A text that closes every parenthesis that it opens, and no other. -/
def Balanced (text : String) : Prop :=
  openBehind 0 text.toList = some 0

instance (text : String) : Decidable (Balanced text) :=
  inferInstanceAs (Decidable (_ = _))

/-- A text behind another one. -/
theorem openBehind_append (depth : Nat) (a b : List Char) :
    openBehind depth (a ++ b) = (openBehind depth a).bind (openBehind · b) := by
  induction a generalizing depth with
  | nil => rfl
  | cons c a ih =>
    rw [List.cons_append, openBehind, openBehind]
    split
    · exact ih (depth + 1)
    · split
      · split
        · rfl
        · exact ih (depth - 1)
      · exact ih depth

/-- Parentheses that were open all along stay open. -/
theorem openBehind_add {depth behind : Nat} {text : List Char}
    (h : openBehind depth text = some behind) (outer : Nat) :
    openBehind (depth + outer) text = some (behind + outer) := by
  induction text generalizing depth with
  | nil =>
    cases h
    rfl
  | cons c text ih =>
    rw [openBehind] at h ⊢
    split at h
    · rename_i hopen
      rw [if_pos hopen, Nat.add_right_comm]
      exact ih h
    · rename_i hopen
      rw [if_neg hopen]
      split at h
      · rename_i hclose
        rw [if_pos hclose]
        split at h
        · cases h
        · rw [if_neg (by omega), Nat.sub_add_comm (by omega)]
          exact ih h
      · rename_i hclose
        rw [if_neg hclose]
        exact ih h

/-- What is open behind a text is what was open in front of it and what the text opens, without
what it closes. -/
theorem count_of_openBehind {depth behind : Nat} {text : List Char}
    (h : openBehind depth text = some behind) :
    depth + text.count '(' = behind + text.count ')' := by
  induction text generalizing depth with
  | nil =>
    cases h
    rfl
  | cons c text ih =>
    rw [openBehind] at h
    rw [List.count_cons, List.count_cons]
    split at h
    · subst c
      have hrest := ih h
      simp only [beq_iff_eq, Char.reduceEq, if_true, if_false]
      omega
    · split at h
      · split at h
        · cases h
        · subst c
          have hrest := ih h
          simp only [beq_iff_eq, Char.reduceEq, if_true, if_false]
          omega
      · have hrest := ih h
        simp only [beq_iff_eq, *, if_false]
        exact hrest

namespace Balanced

/-- A balanced text leaves as many parentheses open as were open in front of it. -/
theorem openBehind_eq {text : String} (h : Balanced text) (depth : Nat) :
    openBehind depth text.toList = some depth := by
  have hadd := openBehind_add h depth
  rwa [Nat.zero_add] at hadd

/-- Balanced texts one behind the other. -/
theorem append {a b : String} (ha : Balanced a) (hb : Balanced b) : Balanced (a ++ b) := by
  rw [Balanced, String.toList_append, openBehind_append, ha.openBehind_eq, Option.bind_some]
  exact hb

/-- A balanced text in parentheses. -/
theorem enclosed {body : String} (h : Balanced body) : Balanced ("(" ++ body ++ ")") := by
  have hopen : openBehind 0 ("(" : String).toList = some 1 := by decide
  have hclose : openBehind 1 (")" : String).toList = some 0 := by decide
  rw [Balanced, String.toList_append, String.toList_append, openBehind_append, openBehind_append,
    hopen, Option.bind_some, h.openBehind_eq, Option.bind_some, hclose]

/-- A balanced text in parentheses, with a balanced one in front of them. -/
theorem call {name body : String} (hname : Balanced name) (hbody : Balanced body) :
    Balanced (name ++ "(" ++ body ++ ")") := by
  rw [String.append_assoc, String.append_assoc]
  exact hname.append (String.append_assoc ▸ hbody.enclosed)

end Balanced

/-- A text without parentheses is balanced. -/
theorem balanced_of_notMem {text : String} (hopen : '(' ∉ text.toList)
    (hclose : ')' ∉ text.toList) : Balanced text := by
  rw [Balanced]
  generalize text.toList = cs at hopen hclose
  induction cs with
  | nil => rfl
  | cons c cs ih =>
    rw [List.mem_cons, not_or] at hopen hclose
    rw [openBehind, if_neg (Ne.symm hopen.1), if_neg (Ne.symm hclose.1)]
    exact ih hopen.2 hclose.2

/-! ## Names, numbers and operators -/

/-- The text is a letter or an underscore with letters, digits and underscores behind it. -/
def isIdentifier (name : String) : Bool :=
  name.toList.head?.any (!·.isDigit) && name.toList.all fun c => c.isAlphanum || c == '_'

/-- An identifier holds letters, digits and underscores only. -/
theorem notMem_of_isIdentifier {name : String} (h : isIdentifier name = true) {c : Char}
    (hc : (c.isAlphanum || c == '_') = false) : c ∉ name.toList := by
  intro hmem
  rw [isIdentifier, Bool.and_eq_true, List.all_eq_true] at h
  have hpart := h.2 c hmem
  rw [hc] at hpart
  cases hpart

/-- An identifier is balanced. -/
theorem balanced_of_isIdentifier {name : String} (h : isIdentifier name = true) : Balanced name :=
  balanced_of_notMem (notMem_of_isIdentifier h (by decide)) (notMem_of_isIdentifier h (by decide))

/-- A natural number is balanced. -/
theorem balanced_repr (n : Nat) : Balanced n.repr :=
  balanced_of_notMem (notMem_repr n (by decide)) (notMem_repr n (by decide))

/-- An integer is balanced. -/
theorem balanced_integerText (n : Int) : Balanced (Number.integerText n) := by
  unfold Number.integerText
  split
  · exact (show Balanced "-" by decide).append (balanced_repr n.natAbs)
  · exact balanced_repr n.natAbs

/-- The symbol of an operator is balanced. -/
theorem balanced_sql (op : BinaryOp) : Balanced op.sql := by
  rcases op with (_ | _ | _ | _ | _ | _) | (_ | _) | (_ | _ | _ | _ | _) <;> decide

/-! ## Terms -/

namespace Term

/-- The name in front of the parentheses that a term is written with, if any, and the text inside
of them. -/
def enclosure? : Term → Option (String × String)
  | operation op left right => some ("", left.text ++ " " ++ op.sql ++ " " ++ right.text)
  | nullTest negated t => some ("", t.text ++ (if negated then " IS NOT NULL" else " IS NULL"))
  | isTrue t => some ("", t.text ++ " = 1")
  | nullOrEmpty t => some ("", t.text ++ " IS NULL OR " ++ t.text ++ " = ''")
  | like t before pattern after =>
    some ("", t.text ++ " LIKE " ++ (if before then "'%' + " else "") ++ pattern.text ++
      (if after then " + '%'" else ""))
  | upper t => some ("UPPER", t.text)
  | lower t => some ("LOWER", t.text)
  | trimmed t => some ("RTRIM", "LTRIM" ++ "(" ++ t.text ++ ")")
  | replaced t pattern new =>
    some ("REPLACE", t.text ++ ", " ++ pattern.text ++ ", " ++ new.text)
  | piece t start length =>
    some ("SUBSTRING", t.text ++ ", " ++ start.text ++ " + 1, " ++ length.text)
  | _ => none

/-- A term that is written with parentheses ends with them. -/
theorem text_of_enclosure? {t : Term} {name body : String}
    (h : t.enclosure? = some (name, body)) : t.text = name ++ "(" ++ body ++ ")" := by
  cases t with
  | upper | lower =>
    cases h
    rfl
  | operation | replaced | piece =>
    cases h
    simp only [← String.append_assoc]
    rfl
  | isTrue t =>
    cases h
    show "(" ++ t.text ++ (" = 1" ++ ")") = _
    rw [← String.append_assoc]
    rfl
  | nullOrEmpty t =>
    cases h
    show "(" ++ t.text ++ " IS NULL OR " ++ t.text ++ (" = ''" ++ ")") = _
    simp only [← String.append_assoc]
    rfl
  | nullTest negated t =>
    have hafter : (if negated then " IS NOT NULL)" else " IS NULL)") =
        (if negated then " IS NOT NULL" else " IS NULL") ++ ")" := by
      cases negated <;> rfl
    cases h
    show "(" ++ t.text ++ (if negated then " IS NOT NULL)" else " IS NULL)") = _
    simp only [hafter, ← String.append_assoc]
    rfl
  | like t before pattern after =>
    have hafter : (if after then " + '%')" else ")") =
        (if after then " + '%'" else "") ++ ")" := by
      cases after <;> rfl
    cases h
    show "(" ++ t.text ++ " LIKE " ++ (if before then "'%' + " else "") ++ pattern.text ++
      (if after then " + '%')" else ")") = _
    simp only [hafter, ← String.append_assoc]
    rfl
  | trimmed t =>
    cases h
    show "RTRIM(LTRIM(" ++ t.text ++ (")" ++ ")") = _
    simp only [← String.append_assoc]
    rfl
  | _ => cases h

/-- A term whose text is balanced, and the text inside of the parentheses as well. -/
def BalancedThrough (t : Term) : Prop :=
  Balanced t.text ∧ ∀ name body, t.enclosure? = some (name, body) → Balanced body

/-- A term without parentheses of its own is balanced through its text. -/
theorem balancedThrough_of_text {t : Term} (h : t.enclosure? = none) (htext : Balanced t.text) :
    t.BalancedThrough := by
  refine ⟨htext, ?_⟩
  intro name body hparts
  rw [h] at hparts
  cases hparts

/-- A term with parentheses of its own is balanced through what is inside of them. -/
theorem balancedThrough_of_body {t : Term} {name body : String}
    (h : t.enclosure? = some (name, body)) (hname : Balanced name) (hbody : Balanced body) :
    t.BalancedThrough := by
  constructor
  · rw [text_of_enclosure? h]
    exact hname.call hbody
  · intro name' body' hparts
    rw [h] at hparts
    cases hparts
    exact hbody

/-- The text of a term is balanced through if the names of its columns are balanced. -/
theorem balancedThrough {t : Term} (h : ∀ c ∈ t.columns, Balanced c) : t.BalancedThrough := by
  have hblank : Balanced " " := by decide
  have hcomma : Balanced ", " := by decide
  induction t with
  | null => exact balancedThrough_of_text rfl (by decide)
  | parameter index =>
    exact balancedThrough_of_text rfl ((show Balanced "@" by decide).append (balanced_repr index))
  | integer n => exact balancedThrough_of_text rfl (balanced_integerText n)
  | column name => exact balancedThrough_of_text rfl (h name List.mem_cons_self)
  | negation t ih =>
    exact balancedThrough_of_text rfl ((show Balanced "NOT " by decide).append (ih h).1)
  | operation op left right ihleft ihright =>
    simp only [columns, List.mem_append] at h
    have hleft := (ihleft fun c hc => h c (.inl hc)).1
    have hright := (ihright fun c hc => h c (.inr hc)).1
    exact balancedThrough_of_body rfl (by decide)
      ((((hleft.append hblank).append (balanced_sql op)).append hblank).append hright)
  | nullTest negated t ih =>
    have hafter : Balanced (if negated then " IS NOT NULL" else " IS NULL") := by
      cases negated <;> decide
    exact balancedThrough_of_body rfl (by decide) ((ih h).1.append hafter)
  | isTrue t ih =>
    exact balancedThrough_of_body rfl (by decide)
      ((ih h).1.append (show Balanced " = 1" by decide))
  | nullOrEmpty t ih =>
    have hfirst := (ih h).1.append (show Balanced " IS NULL OR " by decide)
    exact balancedThrough_of_body rfl (by decide)
      ((hfirst.append (ih h).1).append (show Balanced " = ''" by decide))
  | like t before pattern after iht ihpattern =>
    simp only [columns, List.mem_append] at h
    have ht := (iht fun c hc => h c (.inl hc)).1
    have hpattern := (ihpattern fun c hc => h c (.inr hc)).1
    have hbefore : Balanced (if before then "'%' + " else "") := by
      cases before <;> decide
    have hafter : Balanced (if after then " + '%'" else "") := by
      cases after <;> decide
    have hfirst := (ht.append (show Balanced " LIKE " by decide)).append hbefore
    exact balancedThrough_of_body rfl (by decide) ((hfirst.append hpattern).append hafter)
  | upper t ih => exact balancedThrough_of_body rfl (by decide) (ih h).1
  | lower t ih => exact balancedThrough_of_body rfl (by decide) (ih h).1
  | trimmed t ih =>
    have hinner : Balanced ("LTRIM" ++ "(" ++ t.text ++ ")") :=
      (show Balanced "LTRIM" by decide).call (ih h).1
    exact balancedThrough_of_body rfl (by decide) hinner
  | replaced t pattern new iht ihpattern ihnew =>
    simp only [columns, List.mem_append] at h
    have ht := (iht fun c hc => h c (.inl (.inl hc))).1
    have hpattern := (ihpattern fun c hc => h c (.inl (.inr hc))).1
    have hnew := (ihnew fun c hc => h c (.inr hc)).1
    exact balancedThrough_of_body rfl (by decide)
      ((((ht.append hcomma).append hpattern).append hcomma).append hnew)
  | piece t start length iht ihstart ihlength =>
    simp only [columns, List.mem_append] at h
    have ht := (iht fun c hc => h c (.inl (.inl hc))).1
    have hstart := (ihstart fun c hc => h c (.inl (.inr hc))).1
    have hlength := (ihlength fun c hc => h c (.inr hc)).1
    exact balancedThrough_of_body rfl (by decide)
      ((((ht.append hcomma).append hstart).append (show Balanced " + 1, " by decide)).append
        hlength)

/-- The text of a term is balanced if the names of its columns are. -/
theorem balanced_text {t : Term} (h : ∀ c ∈ t.columns, Balanced c) : Balanced t.text :=
  (balancedThrough h).1

/-- The text inside of the parentheses of a term is balanced if the names of its columns are. -/
theorem balanced_body {t : Term} {name body : String} (hparts : t.enclosure? = some (name, body))
    (h : ∀ c ∈ t.columns, Balanced c) : Balanced body :=
  (balancedThrough h).2 name body hparts

end Term

end RowQuery.Sql
