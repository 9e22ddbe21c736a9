import RowQuery.Text.Blank

/-!
# Texts that trimming leaves alone

Trimming takes blanks away from the two ends, so a text that starts and ends with something else
stays as it is, whatever stands between.  Digits are no blanks.

Main results:

- Theorem {lit}`trim_eq_self`: the ends of a text decide whether it is trimmed.
- Theorems {lit}`isBlank_head?_trim`, {lit}`isBlank_getLast?_trim` and {lit}`isInfix_trim`: what is
  left of a text is a piece of it without blanks at its ends.
- Theorem {lit}`isBlank_of_isDigit`: a digit is no blank.
-/

namespace RowQuery.Text

/-- A digit is no blank. -/
theorem isBlank_of_isDigit {c : Char} (h : c.isDigit = true) : isBlank c = false := by
  have hrange : 48 ≤ c.toNat ∧ c.toNat ≤ 57 := Char.isDigit_iff_toNat.1 h
  rw [isBlank, List.any_eq_false]
  intro range hmem
  simp only [blankRanges, List.mem_cons, List.not_mem_nil, or_false] at hmem
  rcases hmem with rfl | rfl | rfl | rfl | rfl | rfl | rfl | rfl | rfl | rfl
  all_goals
    simp only [Bool.and_eq_true, decide_eq_true_eq]
    omega

/-- Nothing is removed at the start of a text that starts with something else than a blank. -/
theorem trimStart_eq_self {text : List Char} (h : ∀ c ∈ text.head?, isBlank c = false) :
    trimStart text = text := by
  cases text with
  | nil => rfl
  | cons c rest => rw [trimStart, List.dropWhile_cons_of_neg (by simp [h c rfl])]

/-- Nothing is removed at the end of a text that ends with something else than a blank. -/
theorem trimEnd_eq_self {text : List Char} (h : ∀ c ∈ text.getLast?, isBlank c = false) :
    trimEnd text = text := by
  have hreverse : trimStart text.reverse = text.reverse := by
    refine trimStart_eq_self fun c hc => h c ?_
    rwa [List.head?_reverse] at hc
  rw [trimEnd, ← trimStart, hreverse, List.reverse_reverse]

/-- Nothing is removed from a text that starts and ends with something else than a blank. -/
theorem trim_eq_self {text : List Char} (hfirst : ∀ c ∈ text.head?, isBlank c = false)
    (hlast : ∀ c ∈ text.getLast?, isBlank c = false) : trim text = text := by
  rw [trim, trimStart_eq_self hfirst, trimEnd_eq_self hlast]

/-- Nothing is removed from a text without blanks. -/
theorem trim_of_forall {text : List Char} (h : ∀ c ∈ text, isBlank c = false) : trim text = text :=
  trim_eq_self (fun c hc => h c (List.mem_of_mem_head? hc))
    fun c hc => h c (List.mem_of_mem_getLast? hc)

/-! ## What is left -/

/-- Blanks in front of a text do not matter for its start. -/
theorem trimStart_append_of_blank {blanks : List Char} (h : ∀ c ∈ blanks, isBlank c = true)
    (text : List Char) : trimStart (blanks ++ text) = trimStart text :=
  List.dropWhile_append_of_pos h

/-- Blanks in front of a text do not matter when it is trimmed. -/
theorem trim_append_of_blank {blanks : List Char} (h : ∀ c ∈ blanks, isBlank c = true)
    (text : List Char) : trim (blanks ++ text) = trim text := by
  rw [trim, trim, trimStart_append_of_blank h]

/-- What is removed at the start are blanks. -/
theorem exists_blanks_append_trimStart (text : List Char) :
    ∃ blanks, (∀ c ∈ blanks, isBlank c = true) ∧ text = blanks ++ trimStart text :=
  ⟨text.takeWhile isBlank, List.all_eq_true.1 List.all_takeWhile,
    List.takeWhile_append_dropWhile.symm⟩

/-- What is left when blanks are removed at the start does not start with one. -/
theorem isBlank_head?_trimStart {text : List Char} {c : Char} (h : c ∈ (trimStart text).head?) :
    isBlank c = false := by
  have hfirst := List.head?_dropWhile_not isBlank text
  rw [trimStart, Option.mem_def] at h
  rwa [h] at hfirst

/-- What is left when blanks are removed at the end is the beginning of the text. -/
theorem isPrefix_trimEnd (text : List Char) : trimEnd text <+: text := by
  rw [← List.reverse_suffix, trimEnd, List.reverse_reverse]
  exact List.dropWhile_suffix isBlank

/-- A trimmed text does not start with a blank. -/
theorem isBlank_head?_trim {text : List Char} {c : Char} (h : c ∈ (trim text).head?) :
    isBlank c = false := by
  obtain ⟨rest, hrest⟩ := isPrefix_trimEnd (trimStart text)
  refine @isBlank_head?_trimStart text c ?_
  rw [← hrest, Option.mem_def, List.head?_append]
  exact congrArg (·.or rest.head?) h

/-- A trimmed text does not end with a blank. -/
theorem isBlank_getLast?_trim {text : List Char} {c : Char} (h : c ∈ (trim text).getLast?) :
    isBlank c = false := by
  rw [trim, trimEnd, List.getLast?_reverse] at h
  exact isBlank_head?_trimStart h

/-- A trimmed text is a piece of the text. -/
theorem isInfix_trim (text : List Char) : trim text <:+: text :=
  (isPrefix_trimEnd _).isInfix.trans (List.dropWhile_suffix isBlank).isInfix

end RowQuery.Text
