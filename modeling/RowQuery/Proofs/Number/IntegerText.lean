import RowQuery.Number.Integer
import RowQuery.Proofs.Text.Trimming
import RowQuery.Text.Ascii

/-!
# Integers are read back from their text

The text of an integer is a sign, if it is negative, and its decimal digits.  Reading takes the
digits one by one and checks the range at each of them; as the values on the way only grow in size,
an integer of the range is read from its own text.

Main results:

- Theorem {lit}`readDigits_eq`: what is read from digits is the number that they stand for.
- Theorem {lit}`readInt64_integerText`: an integer of 64 bits is read back.
- Theorem {lit}`eq_of_sameName_integerText`: no other text is the same name as that of an integer.
-/

namespace RowQuery.Number

/-! ## Digits -/

/-- The integer with this sign and this absolute value. -/
def signed (negative : Bool) (n : Nat) : Int :=
  if negative then -(n : Int) else n

/-- One more digit is appended to the absolute value. -/
theorem appendDigit_signed (negative : Bool) (n : Nat) (c : Char) :
    appendDigit negative (signed negative n) c = signed negative (10 * n + digitValue c) := by
  cases negative with
  | false => simp [appendDigit, signed]
  | true =>
    simp [appendDigit, signed]
    omega

/-- The number grows with each digit. -/
theorem le_ofDigitChars (digits : List Char) (n : Nat) : n ≤ Nat.ofDigitChars 10 digits n := by
  rw [Nat.ofDigitChars_eq_ofDigitChars_zero]
  calc
    n ≤ 10 ^ digits.length * n := Nat.le_mul_of_pos_left n (Nat.pow_pos (by decide))
    _ ≤ 10 ^ digits.length * n + Nat.ofDigitChars 10 digits 0 := Nat.le_add_right _ _

/-- Digits that stand for an integer of the range are read as that integer. -/
theorem readDigits_eq {negative : Bool} {lo hi : Int} {digits : List Char} {n : Nat}
    (hdigits : ∀ c ∈ digits, c.isDigit = true) (hzero : lo ≤ 0 ∧ 0 ≤ hi)
    (hrange : lo ≤ signed negative (Nat.ofDigitChars 10 digits n) ∧
      signed negative (Nat.ofDigitChars 10 digits n) ≤ hi) :
    readDigits negative lo hi (signed negative n) digits =
      .ok (signed negative (Nat.ofDigitChars 10 digits n)) := by
  induction digits generalizing n with
  | nil => rfl
  | cons c rest ih =>
    have hstep : Nat.ofDigitChars 10 (c :: rest) n =
        Nat.ofDigitChars 10 rest (10 * n + digitValue c) := Nat.ofDigitChars_cons
    rw [hstep] at hrange ⊢
    -- the value so far is no larger in size than the one at the end
    have hgrow := le_ofDigitChars rest (10 * n + digitValue c)
    have hmiddle : lo ≤ signed negative (10 * n + digitValue c) ∧
        signed negative (10 * n + digitValue c) ≤ hi := by
      cases negative with
      | false =>
        simp only [signed, Bool.false_eq_true, if_false] at hrange ⊢
        omega
      | true =>
        simp only [signed, if_true] at hrange ⊢
        omega
    rw [readDigits, if_pos (hdigits c List.mem_cons_self), appendDigit_signed,
      if_neg (Int.not_lt.2 hmiddle.1), if_neg (Int.not_lt.2 hmiddle.2)]
    exact ih (fun d hd => hdigits d (List.mem_cons_of_mem c hd)) hrange

/-! ## Texts -/

/-- The digits of the text of an integer. -/
theorem toList_integerText (n : Int) :
    (integerText n).toList =
      if n < 0 then '-' :: Nat.toDigits 10 n.natAbs else Nat.toDigits 10 n.natAbs := by
  rw [integerText]
  split
  · rw [String.toList_append, Nat.toList_repr]
    rfl
  · exact Nat.toList_repr

/-- The text of an integer is made of digits and a minus sign. -/
theorem isDigit_of_mem_integerText {n : Int} {c : Char} (h : c ∈ (integerText n).toList) :
    c.isDigit = true ∨ c = '-' := by
  have hdigits {c : Char} (hc : c ∈ Nat.toDigits 10 n.natAbs) : c.isDigit = true :=
    Nat.isDigit_of_mem_toDigits (by decide) (by decide) hc
  rw [toList_integerText] at h
  split at h
  · rcases List.mem_cons.1 h with rfl | h
    · exact .inr rfl
    · exact .inl (hdigits h)
  · exact .inl (hdigits h)

/-- The text of an integer has no blanks around it. -/
theorem trim_integerText (n : Int) :
    Text.trim (integerText n).toList = (integerText n).toList := by
  refine Text.trim_of_forall fun c hc => ?_
  rcases isDigit_of_mem_integerText hc with hdigit | rfl
  · exact Text.isBlank_of_isDigit hdigit
  · decide

/-! ## Letters -/

/-- A character in front of the letters is its own lower case, and that of no other character. -/
theorem toLower_eq_self {c : Char} (h : c.toNat < 'A'.toNat ∨ c.toLower.toNat < 'A'.toNat) :
    c.toLower = c := by
  by_cases hupper : 'A'.val ≤ c.val ∧ c.val ≤ 'Z'.val
  · have hfirst : 'A'.toNat ≤ c.toNat := UInt32.le_iff_toNat_le.1 hupper.1
    have hlast : c.toNat ≤ 90 := UInt32.le_iff_toNat_le.1 hupper.2
    have hlower : c.toLower = ⟨c.val + ('a'.val - 'A'.val), _⟩ := dif_pos hupper
    have hbehind : c.toLower.toNat = (c.toNat + 32) % 2 ^ 32 := congrArg Char.toNat hlower
    omega
  · exact dif_neg hupper

/-- The characters of the text of an integer stand in front of the letters. -/
theorem toNat_lt_of_mem_integerText {n : Int} {c : Char} (h : c ∈ (integerText n).toList) :
    c.toNat < 'A'.toNat := by
  rcases isDigit_of_mem_integerText h with hdigit | rfl
  · exact Nat.lt_of_le_of_lt (Char.isDigit_iff_toNat.1 hdigit).2 (by decide)
  · decide

/-- No other text is the same name as that of an integer. -/
theorem eq_of_sameName_integerText {name : String} {n : Int}
    (h : Text.sameName name (integerText n) = true) : name = integerText n := by
  have hfolded : Text.foldAscii (integerText n) = (integerText n).toList := by
    calc
      _ = (integerText n).toList.map id :=
        List.map_congr_left fun c hc => toLower_eq_self (.inl (toNat_lt_of_mem_integerText hc))
      _ = (integerText n).toList := List.map_id _
  have hname : Text.foldAscii name = (integerText n).toList := (Text.sameName_iff.1 h).trans hfolded
  rw [← String.toList_inj, ← hname]
  calc
    name.toList = name.toList.map id := (List.map_id _).symm
    _ = Text.foldAscii name := by
      refine List.map_congr_left fun c hc => (toLower_eq_self (.inr ?_)).symm
      have hmem : c.toLower ∈ Text.foldAscii name := List.mem_map_of_mem hc
      rw [hname] at hmem
      exact toNat_lt_of_mem_integerText hmem

/-! ## Reading -/

/-- Digits without a sign are read as a number that is not negative. -/
theorem readInteger_of_isDigit {lo hi : Int} {digits : List Char} (hne : digits ≠ [])
    (hdigits : ∀ c ∈ digits, c.isDigit = true) :
    readInteger lo hi digits = readDigits false lo hi 0 digits := by
  cases digits with
  | nil => exact absurd rfl hne
  | cons c rest =>
    have hc := hdigits c List.mem_cons_self
    unfold readInteger
    split
    case h_1 heq => cases heq
    case h_2 heq | h_3 heq | h_4 heq | h_5 heq =>
      cases heq
      cases hc
    case h_6 => rfl

/-- An integer of a range around zero is read back from its text. -/
theorem readInteger_integerText {lo hi n : Int} (hzero : lo ≤ 0 ∧ 0 ≤ hi) (hn : lo ≤ n ∧ n ≤ hi) :
    readInteger lo hi (integerText n).toList = .ok n := by
  have hdigits : ∀ c ∈ Nat.toDigits 10 n.natAbs, c.isDigit = true := fun c hc =>
    Nat.isDigit_of_mem_toDigits (by decide) (by decide) hc
  have hne : Nat.toDigits 10 n.natAbs ≠ [] := Nat.toDigits_ne_nil
  have hvalue : Nat.ofDigitChars 10 (Nat.toDigits 10 n.natAbs) 0 = n.natAbs :=
    Nat.ofDigitChars_ten_toDigits
  rw [toList_integerText]
  split
  · rename_i hnegative
    have hsigned : signed true n.natAbs = n := by
      simp only [signed, if_true]
      omega
    have hread : readInteger lo hi ('-' :: Nat.toDigits 10 n.natAbs) =
        readDigits true lo hi (signed true 0) (Nat.toDigits 10 n.natAbs) := by
      cases h : Nat.toDigits 10 n.natAbs with
      | nil => exact absurd h hne
      | cons c rest => rfl
    rw [hread, readDigits_eq hdigits hzero (by rwa [hvalue, hsigned]), hvalue, hsigned]
  · rename_i hnegative
    have hsigned : signed false n.natAbs = n := by
      simp only [signed, Bool.false_eq_true, if_false]
      omega
    have hread : readInteger lo hi (Nat.toDigits 10 n.natAbs) =
        readDigits false lo hi (signed false 0) (Nat.toDigits 10 n.natAbs) :=
      readInteger_of_isDigit hne hdigits
    rw [hread, readDigits_eq hdigits hzero (by rwa [hvalue, hsigned]), hvalue, hsigned]

/-- An integer of 64 bits is read back from its text. -/
theorem readInt64_integerText (n : Int64) : readInt64 (integerText n.toInt).toList = .ok n := by
  rw [readInt64, readInteger_integerText (by decide) ⟨n.minValue_le_toInt, n.toInt_le⟩, Except.map,
    Int64.ofInt_toInt]

end RowQuery.Number
