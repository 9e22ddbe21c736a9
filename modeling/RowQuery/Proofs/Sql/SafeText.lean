import RowQuery.Proofs.Sql.BalancedText
import RowQuery.Proofs.Sql.RecordedConstants
import RowQuery.Proofs.Sql.SelectText

/-!
# Texts that can be put into others

The text of an expression closes its parentheses and its quotes, has neither at signs nor
parentheses in quotes, and ends every placeholder.  A reader goes through a text and keeps what
stands in front; it stops at a character that may not stand there.  Where it comes through a
balanced text, the text can stand in parentheses inside of another one, and is found again there.

Main results:

- Definition {lit}`Front.step`: how the reader goes on behind a character.
- Theorem {lit}`Term.orderly_text`: the reader comes through the text of a term.
- Theorem {lit}`safe_of_orderly`: what this says about parentheses, quotes and at signs.
- Theorem {lit}`inParentheses?_append`: in parentheses, such a text is found again.
- Theorem {lit}`Rendered.standsAlone`: all of this for the expressions that are accepted.
-/

namespace RowQuery.Sql

/-! ## The reader -/

/-- What stands in front of a place of a text. -/
inductive Front where
  | plain
  /-- A quote that is open. -/
  | quote
  /-- An at sign. -/
  | atSign
  /-- An at sign with digits behind it. -/
  | number
  deriving DecidableEq

/-- The characters that matter to the structure of a text. -/
def marks : List Char := ['(', ')', '\'', '@']

/-- The character may stand behind the number of a placeholder. -/
def endsNumber (c : Char) : Bool := c == ' ' || c == ',' || c == ')'

namespace Front

/-- What stands in front behind one more character; none if the character may not stand there. -/
def step (f : Front) (c : Char) : Option Front :=
  match f with
  | plain => if c = '\'' then some quote else if c = '@' then some atSign else some plain
  | quote => if c = '\'' then some plain else if c ∈ marks then none else some quote
  | atSign => if c.isDigit then some number else none
  | number => if c.isDigit then some number else if endsNumber c then some plain else none

/-- What stands in front behind a text. -/
def read (f : Front) (text : List Char) : Option Front :=
  text.foldlM step f

/-- A quote is open. -/
def isQuote (f : Front) : Bool := f = quote

variable {f f' : Front} {c : Char} {text : List Char}

/-- A digit ends no number. -/
theorem endsNumber_of_isDigit (h : c.isDigit = true) : endsNumber c = false := by
  rw [Bool.eq_false_iff]
  intro hend
  simp only [endsNumber, Bool.or_eq_true, beq_iff_eq] at hend
  rcases hend with (rfl | rfl) | rfl <;> simp at h

/-- A digit is none of the characters that matter. -/
theorem notMem_marks_of_isDigit (h : c.isDigit = true) : c ∉ marks := by
  intro hmem
  simp only [marks, List.mem_cons, List.not_mem_nil, or_false] at hmem
  rcases hmem with rfl | rfl | rfl | rfl <;> simp at h

/-- Behind an at sign only a digit may stand. -/
theorem of_step_atSign (h : atSign.step c = some f') : c.isDigit = true ∧ f' = number := by
  simp only [step] at h
  split at h
  · cases h
    exact ⟨‹_›, rfl⟩
  · cases h

/-- Behind a digit only another one or an end may stand. -/
theorem of_step_number (h : number.step c = some f') :
    c.isDigit = true ∧ f' = number ∨ endsNumber c = true ∧ f' = plain := by
  simp only [step] at h
  split at h
  · cases h
    exact .inl ⟨‹_›, rfl⟩
  · split at h
    · cases h
      exact .inr ⟨‹_›, rfl⟩
    · cases h

/-- A quote is opened and closed by quotes only. -/
theorem isQuote_step (h : f.step c = some f') : f'.isQuote = (f.isQuote ^^ (c == '\'')) := by
  have hdigit (hc : c.isDigit = true) : c ≠ '\'' := by
    rintro rfl
    cases hc
  cases f with
  | plain | quote =>
    simp only [step] at h
    split at h
    · cases h
      simp [isQuote, *]
    · split at h <;> cases h <;> simp [isQuote, *]
  | atSign =>
    obtain ⟨hc, rfl⟩ := of_step_atSign h
    simp [isQuote, hdigit hc]
  | number =>
    obtain ⟨hc, rfl⟩ | ⟨hc, rfl⟩ := of_step_number h
    · simp [isQuote, hdigit hc]
    · have hend : c ≠ '\'' := by
        rintro rfl
        cases hc
      simp [isQuote, hend]

/-- What stands in quotes has no parentheses. -/
theorem notMem_marks_of_step_quote (h : quote.step c = some f') (hc : c ≠ '\'') : c ∉ marks := by
  simp only [step, if_neg hc] at h
  split at h
  · cases h
  · assumption

/-- An at sign stands neither in quotes nor in a placeholder. -/
theorem eq_of_step_at (h : f.step '@' = some f') : f = plain ∧ f' = atSign := by
  cases f with
  | plain =>
    cases h
    exact ⟨rfl, rfl⟩
  | quote | atSign | number => cases h

/-! ## Reading -/

/-- To read a text is to read its first character and then the rest. -/
theorem read_cons (f : Front) (c : Char) (text : List Char) :
    f.read (c :: text) = (f.step c).bind (·.read text) := rfl

/-- A text behind another one is read on from what stands in front of it. -/
theorem read_append (f : Front) (a b : List Char) :
    f.read (a ++ b) = (f.read a).bind (·.read b) :=
  List.foldlM_append

/-- Where the reader comes through a text, it comes through the first character. -/
theorem exists_of_read_cons (h : f.read (c :: text) = some f') :
    ∃ m, f.step c = some m ∧ m.read text = some f' :=
  Option.bind_eq_some_iff.1 ((read_cons f c text).symm.trans h)

/-- Where the reader comes through a text, it comes through its beginning. -/
theorem exists_of_read_append {a b : List Char} (h : f.read (a ++ b) = some f') :
    ∃ m, f.read a = some m ∧ m.read b = some f' :=
  Option.bind_eq_some_iff.1 ((read_append f a b).symm.trans h)

/-- A quote is open behind a text with an odd number of them. -/
theorem quotes_of_read (h : f.read text = some f') :
    (f.isQuote.toNat + text.count '\'') % 2 = f'.isQuote.toNat := by
  induction text generalizing f with
  | nil =>
    cases h
    cases f'.isQuote <;> rfl
  | cons c text ih =>
    obtain ⟨m, hstep, hrest⟩ := exists_of_read_cons h
    have hbehind := ih hrest
    rw [isQuote_step hstep] at hbehind
    by_cases hc : c = '\''
    · subst hc
      rw [List.count_cons_self]
      cases hf : f.isQuote <;> simp [hf] at hbehind ⊢ <;> omega
    · rw [List.count_cons_of_ne hc]
      rwa [beq_eq_false_iff_ne.2 hc, Bool.xor_false] at hbehind

/-- The digits of a number are read as one. -/
theorem read_digits (h : ∀ c ∈ text, c.isDigit = true) : number.read text = some number := by
  induction text with
  | nil => rfl
  | cons c text ih =>
    simp only [List.mem_cons, forall_eq_or_imp] at h
    rw [read_cons, step, if_pos h.1, Option.bind_some]
    exact ih h.2

/-- A text without characters that matter is passed. -/
theorem read_of_notMem (h : ∀ c ∈ text, c ∉ marks) : plain.read text = some plain := by
  induction text with
  | nil => rfl
  | cons c text ih =>
    simp only [List.mem_cons, forall_eq_or_imp] at h
    have hc := h.1
    simp only [marks, List.mem_cons, not_or] at hc
    rw [read_cons, step, if_neg hc.2.2.1, if_neg hc.2.2.2.1, Option.bind_some]
    exact ih h.2

/-- Behind a number the reader goes on as if there was none, if the number ends there. -/
theorem read_number_of_ends (h : text.head?.any endsNumber = true) :
    number.read text = plain.read text := by
  cases text with
  | nil => simp at h
  | cons c text =>
    have hend : endsNumber c = true := h
    have hdigit : c.isDigit ≠ true := fun hdigit => by
      rw [endsNumber_of_isDigit hdigit] at hend
      cases hend
    have hplain : plain.step c = some plain := by
      simp only [endsNumber, Bool.or_eq_true, beq_iff_eq] at hend
      rcases hend with (rfl | rfl) | rfl <;> rfl
    rw [read_cons, read_cons, hplain, step, if_neg hdigit, if_pos hend]

/-- Behind a number there are the rest of its digits, and then an end. -/
theorem exists_of_read_number (h : number.read text = some f') :
    ∃ digits rest, text = digits ++ rest ∧ (∀ c ∈ digits, c.isDigit = true) ∧
      ∀ c ∈ rest.head?, endsNumber c = true := by
  induction text with
  | nil => exact ⟨[], [], rfl, by simp, by simp⟩
  | cons c text ih =>
    obtain ⟨m, hstep, hrest⟩ := exists_of_read_cons h
    obtain ⟨hdigit, rfl⟩ | ⟨hend, rfl⟩ := of_step_number hstep
    · obtain ⟨digits, rest, rfl, hdigits, hend⟩ := ih hrest
      exact ⟨c :: digits, rest, rfl, List.forall_mem_cons.2 ⟨hdigit, hdigits⟩, hend⟩
    · exact ⟨[], c :: text, rfl, by simp, by simpa using hend⟩

end Front

/-- A number stands at the start, and behind it a blank, a comma, a closing
parenthesis or nothing. -/
def StartsWithNumber (text : List Char) : Prop :=
  ∃ digits rest, text = digits ++ rest ∧ digits ≠ [] ∧ (∀ c ∈ digits, c.isDigit = true) ∧
    ∀ c ∈ rest.head?, endsNumber c = true

/-- Behind an at sign there is a number, unless the text stops there. -/
theorem startsWithNumber_of_read {f : Front} {text : List Char}
    (h : Front.atSign.read text = some f) (hf : f ≠ .atSign) : StartsWithNumber text := by
  cases text with
  | nil =>
    cases h
    exact absurd rfl hf
  | cons c text =>
    obtain ⟨m, hstep, hrest⟩ := Front.exists_of_read_cons h
    obtain ⟨hdigit, rfl⟩ := Front.of_step_atSign hstep
    obtain ⟨digits, rest, rfl, hdigits, hend⟩ := Front.exists_of_read_number hrest
    exact ⟨c :: digits, rest, rfl, List.cons_ne_nil _ _, List.forall_mem_cons.2 ⟨hdigit, hdigits⟩,
      hend⟩

/-! ## Orderly texts -/

/-- The reader comes through a text, and anything may stand behind it. -/
def Complete (text : String) : Prop :=
  Front.plain.read text.toList = some .plain

/-- The reader comes through a text, unless a number at its end goes on behind it. -/
def Orderly (text : String) : Prop :=
  Complete text ∨ Front.plain.read text.toList = some .number

instance (text : String) : Decidable (Complete text) :=
  inferInstanceAs (Decidable (_ = _))

/-- A text without characters that matter is complete. -/
theorem complete_of_notMem {text : String} (h : ∀ c ∈ text.toList, c ∉ marks) : Complete text :=
  Front.read_of_notMem h

namespace Complete

variable {a b : String}

/-- A text that anything may stand behind. -/
theorem orderly (h : Complete a) : Orderly a := .inl h

/-- Complete texts one behind the other. -/
theorem append (ha : Complete a) (hb : Complete b) : Complete (a ++ b) := by
  rw [Complete, String.toList_append, Front.read_append, ha]
  exact hb

/-- An orderly text behind a complete one. -/
theorem append_orderly (ha : Complete a) (hb : Orderly b) : Orderly (a ++ b) := by
  rw [Orderly, Complete, String.toList_append, Front.read_append, ha]
  exact hb

end Complete

/-- A complete text behind an orderly one, if it starts with an end. -/
theorem Orderly.append {a b : String} (ha : Orderly a) (hb : Complete b)
    (hends : b.toList.head?.any endsNumber = true) : Complete (a ++ b) := by
  obtain ha | ha := ha
  · exact ha.append hb
  · rw [Complete, String.toList_append, Front.read_append, ha, Option.bind_some,
      Front.read_number_of_ends hends]
    exact hb

/-- Behind an orderly text no quote is open, and it does not stop at an at sign. -/
theorem Orderly.exists_read {text : String} (h : Orderly text) :
    ∃ f, Front.plain.read text.toList = some f ∧ f.isQuote = false ∧ f ≠ .atSign := by
  obtain h | h := h
  · exact ⟨.plain, h, rfl, by simp⟩
  · exact ⟨.number, h, rfl, by simp⟩

/-- An orderly text in parentheses. -/
theorem Orderly.enclosed {body : String} (h : Orderly body) : Complete ("(" ++ body ++ ")") :=
  ((show Complete "(" by decide).append_orderly h).append (show Complete ")" by decide) (by decide)

/-- An orderly text in parentheses, with a complete one in front of them. -/
theorem Orderly.call {name body : String} (hbody : Orderly body) (hname : Complete name) :
    Complete (name ++ "(" ++ body ++ ")") := by
  rw [String.append_assoc, String.append_assoc]
  exact hname.append (String.append_assoc ▸ hbody.enclosed)

/-! ## What is read off -/

/-- A text closes its parentheses and its quotes, and each at sign in it stands outside of quotes
and is followed by a number that ends. -/
structure Safe (text : String) : Prop where
  /-- It closes as many parentheses as it opens. -/
  count_eq : text.toList.count '(' = text.toList.count ')'
  /-- At no place it has closed more than it has opened. -/
  count_le (front rest : List Char) (h : text.toList = front ++ rest) :
    front.count ')' ≤ front.count '('
  /-- It has an even number of quotes. -/
  quotes : text.toList.count '\'' % 2 = 0
  /-- An even number of quotes stands in front of each at sign. -/
  outside (front rest : List Char) (h : text.toList = front ++ '@' :: rest) :
    front.count '\'' % 2 = 0
  /-- Behind each at sign stands a number, and behind that a blank, a comma, a closing parenthesis
  or nothing. -/
  number (front rest : List Char) (h : text.toList = front ++ '@' :: rest) : StartsWithNumber rest

/-- In front of an at sign all quotes are closed, and the reader goes on behind it. -/
theorem Front.of_read_at {f : Front} {front rest : List Char}
    (h : Front.plain.read (front ++ '@' :: rest) = some f) :
    front.count '\'' % 2 = 0 ∧ Front.atSign.read rest = some f := by
  obtain ⟨m, hfront, hrest⟩ := exists_of_read_append h
  obtain ⟨m', hstep, hbehind⟩ := exists_of_read_cons hrest
  obtain ⟨rfl, rfl⟩ := eq_of_step_at hstep
  exact ⟨by simpa [isQuote] using quotes_of_read hfront, hbehind⟩

/-- A balanced text that the reader comes through is safe. -/
theorem safe_of_orderly {text : String} (hbalanced : Balanced text) (h : Orderly text) :
    Safe text := by
  obtain ⟨f, hread, hquote, hat⟩ := h.exists_read
  exact
    { count_eq := by
        have hcount := count_of_openBehind hbalanced
        omega
      count_le := by
        intro front rest hsplit
        rw [Balanced, hsplit, openBehind_append] at hbalanced
        obtain ⟨behind, hfront, -⟩ := Option.bind_eq_some_iff.1 hbalanced
        have hcount := count_of_openBehind hfront
        omega
      quotes := by
        have hquotes := Front.quotes_of_read hread
        rw [hquote] at hquotes
        simpa [Front.isQuote] using hquotes
      outside := by
        intro front rest hsplit
        rw [hsplit] at hread
        exact (Front.of_read_at hread).1
      number := by
        intro front rest hsplit
        rw [hsplit] at hread
        exact startsWithNumber_of_read (Front.of_read_at hread).2 hat }

/-! ## Terms -/

/-- The characters of a natural number do not matter. -/
theorem complete_repr (n : Nat) : Complete n.repr :=
  complete_of_notMem fun _ hc => Front.notMem_marks_of_isDigit (isDigit_of_mem_repr hc)

/-- The characters of an integer do not matter. -/
theorem complete_integerText (n : Int) : Complete (Number.integerText n) := by
  unfold Number.integerText
  split
  · exact (show Complete "-" by decide).append (complete_repr n.natAbs)
  · exact complete_repr n.natAbs

/-- The characters of an operator do not matter. -/
theorem complete_sql (op : BinaryOp) : Complete op.sql := by
  rcases op with (_ | _ | _ | _ | _ | _) | (_ | _) | (_ | _ | _ | _ | _) <;> decide

/-- A placeholder is orderly. -/
theorem orderly_placeholder (index : Nat) : Orderly (Term.placeholder index) := by
  have hdigits : ∀ c ∈ index.repr.toList, c.isDigit = true := fun _ hc => isDigit_of_mem_repr hc
  right
  rw [Term.placeholder, String.toList_append]
  cases hrepr : index.repr.toList with
  | nil => simp at hrepr
  | cons c digits =>
    rw [hrepr, List.forall_mem_cons] at hdigits
    show (Front.atSign.step c).bind (·.read digits) = some .number
    rw [Front.step, if_pos hdigits.1, Option.bind_some]
    exact Front.read_digits hdigits.2

/-- A name without parentheses, quotes and at signs. -/
def IsPlainName (name : String) : Prop := ∀ c ∈ name.toList, c ∉ marks

instance (name : String) : Decidable (IsPlainName name) :=
  decidable_of_iff (name.toList.all (!marks.contains ·) = true) (by simp [IsPlainName])

/-- A name that the text of a statement can have without regard to its structure. -/
theorem IsPlainName.balanced {name : String} (h : IsPlainName name) : Balanced name :=
  balanced_of_notMem (fun hc => h _ hc (by decide)) (fun hc => h _ hc (by decide))

/-- A plain name does not get in the way of the scanner of placeholders. -/
theorem IsPlainName.quiet {name : String} (h : IsPlainName name) : Quiet name :=
  quiet_of_notMem (fun hc => h _ hc (by decide)) (fun hc => h _ hc (by decide))

namespace Term

/-- A term is orderly if what stands in its parentheses is. -/
theorem orderly_of_body {t : Term} {name body : String} (h : t.enclosure? = some (name, body))
    (hname : Complete name) (hbody : Orderly body) : Orderly t.text := by
  rw [text_of_enclosure? h]
  exact (hbody.call hname).orderly

/-- The reader comes through the text of a term, provided that the names of its columns are
plain. -/
theorem orderly_text {t : Term} (h : ∀ c ∈ t.columns, IsPlainName c) : Orderly t.text := by
  -- Whatever is written behind a part starts with an end, so a number at the end of the part stops
  -- there; this holds for both texts of a part that is written twice.
  have hblank : Complete " " := by decide
  have hcomma : Complete ", " := by decide
  induction t with
  | null => exact (show Complete "NULL" by decide).orderly
  | parameter index => exact orderly_placeholder index
  | integer n => exact (complete_integerText n).orderly
  | column name => exact (complete_of_notMem (h name List.mem_cons_self)).orderly
  | negation t ih => exact (show Complete "NOT " by decide).append_orderly (ih h)
  | operation op left right ihleft ihright =>
    simp only [columns, List.mem_append] at h
    have hleft := (ihleft fun c hc => h c (.inl hc)).append hblank (by decide)
    have hop := (hleft.append (complete_sql op)).append hblank
    exact orderly_of_body rfl (by decide) (hop.append_orderly (ihright fun c hc => h c (.inr hc)))
  | nullTest negated t ih =>
    refine orderly_of_body rfl (by decide) ((ih h).append ?_ ?_).orderly
    · cases negated <;> decide
    · cases negated <;> decide
  | isTrue t ih =>
    exact orderly_of_body rfl (by decide)
      ((ih h).append (show Complete " = 1" by decide) (by decide)).orderly
  | nullOrEmpty t ih =>
    have hfirst := (ih h).append (show Complete " IS NULL OR " by decide) (by decide)
    exact orderly_of_body rfl (by decide)
      ((hfirst.append_orderly (ih h)).append (show Complete " = ''" by decide) (by decide)).orderly
  | like t before pattern after iht ihpattern =>
    simp only [columns, List.mem_append] at h
    have hbefore : Complete (if before then "'%' + " else "") := by
      cases before <;> decide
    have ht := (iht fun c hc => h c (.inl hc)).append (show Complete " LIKE " by decide) (by decide)
    have hpattern := (ht.append hbefore).append_orderly (ihpattern fun c hc => h c (.inr hc))
    cases after with
    | false => exact orderly_of_body rfl (by decide) (by simpa using hpattern)
    | true =>
      exact orderly_of_body rfl (by decide)
        (hpattern.append (show Complete " + '%'" by decide) (by decide)).orderly
  | upper t ih => exact orderly_of_body rfl (by decide) (ih h)
  | lower t ih => exact orderly_of_body rfl (by decide) (ih h)
  | trimmed t ih =>
    exact orderly_of_body rfl (by decide) ((ih h).call (show Complete "LTRIM" by decide)).orderly
  | replaced t pattern new iht ihpattern ihnew =>
    simp only [columns, List.mem_append] at h
    have ht := (iht fun c hc => h c (.inl (.inl hc))).append hcomma (by decide)
    have hpattern := (ht.append_orderly (ihpattern fun c hc => h c (.inl (.inr hc)))).append hcomma
      (by decide)
    exact orderly_of_body rfl (by decide)
      (hpattern.append_orderly (ihnew fun c hc => h c (.inr hc)))
  | piece t start length iht ihstart ihlength =>
    simp only [columns, List.mem_append] at h
    have ht := (iht fun c hc => h c (.inl (.inl hc))).append hcomma (by decide)
    have hstart := (ht.append_orderly (ihstart fun c hc => h c (.inl (.inr hc)))).append
      (show Complete " + 1, " by decide) (by decide)
    exact orderly_of_body rfl (by decide)
      (hstart.append_orderly (ihlength fun c hc => h c (.inr hc)))

end Term

/-! ## Texts in parentheses -/

/-- The number of parentheses that are open behind a character.  Those in quotes do not count. -/
def depthBehind (quoted : Bool) (depth : Nat) (c : Char) : Nat :=
  if quoted then depth
  else if c = '(' then depth + 1
  else if c = ')' then depth - 1
  else depth

/-- The text up to the parenthesis that closes one which is open in front of it, and what stands
behind that parenthesis. -/
def enclosed? (quoted : Bool) (depth : Nat) : List Char → Option (List Char × List Char)
  | [] => none
  | c :: rest =>
    if c = ')' ∧ quoted = false ∧ depth = 0 then some ([], rest)
    else
      (enclosed? (quoted ^^ (c == '\'')) (depthBehind quoted depth c) rest).map
        fun (body, rest) => (c :: body, rest)

/-- The text in the parentheses that a text starts with, and what stands behind them. -/
def inParentheses? (text : String) : Option (String × String) :=
  match text.toList with
  | '(' :: rest => (enclosed? false 0 rest).map fun (body, rest) => (.ofList body, .ofList rest)
  | _ => none

/-- The first character of a balanced text does not close what is open around it, and what stands
behind the character closes what is open there. -/
theorem openBehind_depthBehind {quoted : Bool} {depth behind : Nat} {c : Char} {text : List Char}
    (h : openBehind depth (c :: text) = some behind) (hquoted : quoted = true → c ∉ ['(', ')']) :
    ¬ (c = ')' ∧ quoted = false ∧ depth = 0) ∧
      openBehind (depthBehind quoted depth c) text = some behind := by
  rw [openBehind] at h
  cases quoted with
  | true =>
    have hc := hquoted rfl
    simp only [List.mem_cons, List.not_mem_nil, or_false, not_or] at hc
    rw [if_neg hc.1, if_neg hc.2] at h
    exact ⟨fun hclose => hc.2 hclose.1, h⟩
  | false =>
    simp only [depthBehind, Bool.false_eq_true, if_false]
    by_cases hopen : c = '('
    · rw [if_pos hopen] at h ⊢
      exact ⟨by simp [hopen], h⟩
    · rw [if_neg hopen] at h ⊢
      by_cases hclose : c = ')'
      · rw [if_pos hclose] at h ⊢
        split at h
        · cases h
        · exact ⟨fun hall => ‹depth ≠ 0› hall.2.2, h⟩
      · rw [if_neg hclose] at h ⊢
        exact ⟨fun hall => hclose hall.1, h⟩

/-- A balanced text that the reader comes through does not close what is open around it. -/
theorem enclosed?_append {f f' : Front} {depth behind : Nat} {text : List Char}
    (hread : f.read text = some f') (hopen : openBehind depth text = some behind)
    (rest : List Char) :
    enclosed? f.isQuote depth (text ++ rest) =
      (enclosed? f'.isQuote behind rest).map fun (body, rest) => (text ++ body, rest) := by
  induction text generalizing f depth with
  | nil =>
    cases hread
    cases hopen
    simp
  | cons c text ih =>
    obtain ⟨m, hstep, hrest⟩ := Front.exists_of_read_cons hread
    -- both count the same parentheses, since none stands in quotes
    have hquoted : f.isQuote = true → c ∉ ['(', ')'] := by
      intro hf hmem
      have hc : c ≠ '\'' := by
        rintro rfl
        simp at hmem
      rw [Front.isQuote, decide_eq_true_eq] at hf
      subst hf
      exact Front.notMem_marks_of_step_quote hstep hc (List.mem_append_left ['\'', '@'] hmem)
    obtain ⟨hinner, hbehind⟩ := openBehind_depthBehind hopen hquoted
    rw [List.cons_append, enclosed?, if_neg hinner, ← Front.isQuote_step hstep, ih hrest hbehind,
      Option.map_map]
    rfl

/-- In parentheses, a balanced text that the reader comes through is found again. -/
theorem inParentheses?_append {body : String} (hbalanced : Balanced body) (h : Orderly body)
    (rest : String) : inParentheses? ("(" ++ body ++ ")" ++ rest) = some (body, rest) := by
  obtain ⟨f, hread, hquote, -⟩ := h.exists_read
  have htext : ("(" ++ body ++ ")" ++ rest).toList =
      '(' :: (body.toList ++ ')' :: rest.toList) := by
    simp
  have hfound : enclosed? false 0 (body.toList ++ ')' :: rest.toList) =
      some (body.toList, rest.toList) := by
    refine (enclosed?_append hread hbalanced _).trans ?_
    rw [hquote, enclosed?, if_pos ⟨rfl, rfl, rfl⟩]
    simp
  rw [inParentheses?, htext]
  simp only [hfound, Option.map_some, String.ofList_toList]

/-! ## Joined conditions -/

/-- Two conditions that are joined are read as before: the text is safe, it has the placeholders of
both, and in the parentheses around them both are found again. -/
structure JoinsWhole (op : Connective) (a b : Condition) : Prop where
  safe : Safe (a.join op b).text
  placeholders_eq : placeholders (a.join op b).text = placeholders a.text ++ placeholders b.text
  first : inParentheses? (a.join op b).text =
    some (a.text, " " ++ op.sql ++ " " ++ "(" ++ b.text ++ ")")
  second : inParentheses? ("(" ++ b.text ++ ")") = some (b.text, "")

/-- A balanced text that the reader comes through, and whose placeholders are found in front of
whatever ends them. -/
structure Portable (text : String) : Prop where
  balanced : Balanced text
  orderly : Orderly text
  scans : Scans text (placeholders text)

/-- The text of a term can be put into others, provided that the names of its columns are plain. -/
theorem Term.portable_text {t : Term} (h : ∀ c ∈ t.columns, IsPlainName c) : Portable t.text := by
  have hscans : Scans t.text t.names := scans_text fun c hc => (h c hc).quiet
  refine ⟨balanced_text fun c hc => (h c hc).balanced, orderly_text h, ?_⟩
  rw [hscans.placeholders_eq]
  exact hscans

/-- A joined condition is a text in parentheses, a connective and another such text. -/
theorem text_join (op : Connective) (a b : Condition) :
    (a.join op b).text =
      "(" ++ a.text ++ ")" ++ (" " ++ op.sql ++ " " ++ "(" ++ b.text ++ ")") := by
  show "(" ++ a.text ++ (")" ++ " ") ++ op.sql ++ (" " ++ "(") ++ b.text ++ ")" = _
  simp only [String.append_assoc]

namespace Portable

variable {a b : Condition}

/-- What can be put into others is safe. -/
theorem safe {text : String} (h : Portable text) : Safe text :=
  safe_of_orderly h.balanced h.orderly

/-- Two conditions that are joined can again be joined to others. -/
theorem join (ha : Portable a.text) (hb : Portable b.text) (op : Connective) :
    Portable (a.join op b).text := by
  have hscans : Scans (a.join op b).text (placeholders a.text ++ placeholders b.text) :=
    scans_join ha.scans hb.scans
  refine ⟨?_, ?_, ?_⟩
  · have hop : Balanced (" " ++ op.sql ++ " ") := by cases op <;> decide
    rw [text_join]
    exact ha.balanced.enclosed.append (hop.call hb.balanced)
  · have hop : Complete (" " ++ op.sql ++ " ") := by cases op <;> decide
    rw [text_join]
    exact (ha.orderly.enclosed.append (hb.orderly.call hop)).orderly
  · rw [hscans.placeholders_eq]
    exact hscans

/-- Two conditions that are joined are read as before. -/
theorem joinsWhole (ha : Portable a.text) (hb : Portable b.text) (op : Connective) :
    JoinsWhole op a b where
  safe := (ha.join hb op).safe
  placeholders_eq := (scans_join ha.scans hb.scans).placeholders_eq
  first := by
    rw [text_join]
    exact inParentheses?_append ha.balanced ha.orderly _
  second := by
    have hfound := inParentheses?_append hb.balanced hb.orderly ""
    rwa [String.append_empty] at hfound

end Portable

/-! ## Expressions -/

/-- The text of an expression that is accepted, as a value or as a condition, over a table with
plain names and behind any constants. -/
inductive Rendered : String → Prop
  | value {table : Table} {e : Expr} {before after : List Value} {t : Term}
    (hnames : ∀ c ∈ table.columns, IsPlainName c.name)
    (h : (Term.ofExpr table e).run before = .ok (t, after)) : Rendered t.text
  | condition {table : Table} {e : Expr} {before after : List Value} {t : Term}
    (hnames : ∀ c ∈ table.columns, IsPlainName c.name)
    (h : (Term.ofCondition table e).run before = .ok (t, after)) : Rendered t.text

/-- A text that is safe, and stays whole where it is joined to another one of its kind. -/
structure StandsAlone (text : String) : Prop where
  safe : Safe text
  joins (other : String) (h : Rendered other) (op : Connective) (values values' : List Value) :
    JoinsWhole op ⟨text, values⟩ ⟨other, values'⟩

namespace Rendered

/-- A text of an expression can be put into others. -/
theorem portable {text : String} (h : Rendered text) : Portable text := by
  -- all columns of the term are columns of the table
  have hplain {table : Table} (hnames : ∀ c ∈ table.columns, IsPlainName c.name)
      {columns : List String} (hcolumns : ∀ c ∈ columns, c ∈ table.columns.map Column.name) :
      ∀ c ∈ columns, IsPlainName c := by
    intro c hc
    obtain ⟨column, hcolumn, rfl⟩ := List.mem_map.1 (hcolumns c hc)
    exact hnames column hcolumn
  cases h with
  | value hnames h => exact Term.portable_text (hplain hnames (trace_ofExpr h).columns_mem)
  | condition hnames h => exact Term.portable_text (hplain hnames (trace_ofCondition h).columns_mem)

/-- Texts of expressions are balanced, keep at signs out of quotes and end their placeholders, and
so can be joined. -/
theorem standsAlone {text : String} (h : Rendered text) : StandsAlone text where
  safe := h.portable.safe
  joins _ hother op _ _ := h.portable.joinsWhole hother.portable op

end Rendered

/-- A table of people with their names. -/
def nameTable : Table := ⟨"People", [⟨"Name", "Name", .text, none, none, .application⟩]⟩

/-- The name starts with a letter. -/
def startsWithLetter : Expr :=
  .call (some (.field (.row 0) "Name" .text)) "StartsWith" [.value (.text "A")]

/-- A text match behind another constant stands alone. -/
theorem standsAlone_startsWithLetter :
    Rendered "(Name LIKE @1 + '%')" ∧ StandsAlone "(Name LIKE @1 + '%')" := by
  have hnames : ∀ c ∈ nameTable.columns, IsPlainName c.name := by decide
  have hrun : (Term.ofCondition nameTable startsWithLetter).run [.int32 7] =
      .ok (.like (.column "Name") false (.parameter 1) true, [.int32 7, .text "A"]) := rfl
  have htext : (Term.like (.column "Name") false (.parameter 1) true).text =
      "(Name LIKE @1 + '%')" := by decide
  have hrendered : Rendered "(Name LIKE @1 + '%')" := htext ▸ .condition hnames hrun
  exact ⟨hrendered, hrendered.standsAlone⟩

end RowQuery.Sql
