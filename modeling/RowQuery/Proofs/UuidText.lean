import RowQuery.Uuid
import RowQuery.Proofs.Text.Trimming

/-!
# Identifiers are read back from their text

The text of an identifier is two hexadecimal digits for each byte, cut into five groups with hyphens
between them.  It is no row of digits because of the hyphens, so it is read as the canonical form:
without the hyphens the groups are the digits again.

Main results:

- Theorem {lit}`Hex.bytes?_text`: bytes are read back from their digits.
- Theorem {lit}`Uuid.filter_text`: the groups of an identifier are its digits.
- Theorem {lit}`Uuid.read_text`: an identifier is read back from its text.
-/

namespace RowQuery

/-! ## Digits -/

namespace Hex

/-- A digit stands for its number. -/
theorem value?_digit {n : Nat} (h : n < 16) : value? (digit n) = some n := by
  revert n
  decide

/-- A hyphen is no digit. -/
theorem value?_hyphen : value? '-' = none := by
  decide

/-- The text of bytes is made of digits. -/
theorem exists_eq_digit {bytes : List UInt8} {c : Char} (h : c ∈ text bytes) :
    ∃ n < 16, c = digit n := by
  obtain ⟨byte, _, hc⟩ := List.mem_flatMap.1 h
  have hbyte : byte.toNat < 256 := byte.toNat_lt_size
  rcases List.mem_cons.1 hc with rfl | hc
  · exact ⟨_, by omega, rfl⟩
  · exact ⟨_, by omega, List.mem_singleton.1 hc⟩

/-- A digit is no blank. -/
theorem isBlank_digit {n : Nat} (h : n < 16) : Text.isBlank (digit n) = false := by
  revert n
  decide

/-- There is no hyphen among the digits of bytes. -/
theorem ne_hyphen_of_mem_text {bytes : List UInt8} {c : Char} (h : c ∈ text bytes) : c ≠ '-' := by
  obtain ⟨n, hn, rfl⟩ := exists_eq_digit h
  intro heq
  have hvalue := value?_digit hn
  rw [heq, value?_hyphen] at hvalue
  cases hvalue

/-- There is no blank among the digits of bytes. -/
theorem isBlank_of_mem_text {bytes : List UInt8} {c : Char} (h : c ∈ text bytes) :
    Text.isBlank c = false := by
  obtain ⟨n, hn, rfl⟩ := exists_eq_digit h
  exact isBlank_digit hn

/-- Each byte has two digits. -/
theorem length_text (bytes : List UInt8) : (text bytes).length = 2 * bytes.length := by
  induction bytes with
  | nil => rfl
  | cons byte rest ih =>
    have hcons : (text (byte :: rest)).length = 2 + (text rest).length := by
      rw [text, List.flatMap_cons, List.length_append]
      rfl
    rw [hcons, ih, List.length_cons]
    omega

/-- Bytes are read back from their digits. -/
theorem bytes?_text (bytes : List UInt8) : bytes? (text bytes) = some bytes := by
  induction bytes with
  | nil => rfl
  | cons byte rest ih =>
    have hbyte : byte.toNat < 256 := byte.toNat_lt_size
    have hhigh : value? (digit (byte.toNat / 16)) = some (byte.toNat / 16) :=
      value?_digit (by omega)
    have hlow : value? (digit (byte.toNat % 16)) = some (byte.toNat % 16) :=
      value?_digit (by omega)
    have hcons : text (byte :: rest) =
        digit (byte.toNat / 16) :: digit (byte.toNat % 16) :: text rest := rfl
    rw [hcons, bytes?, hhigh, hlow, ih]
    show some (UInt8.ofNat (16 * (byte.toNat / 16) + byte.toNat % 16) :: rest) = _
    rw [Nat.div_add_mod, UInt8.ofNat_toNat]

/-- Only digits are read as bytes. -/
theorem value?_isSome_of_bytes? {digits : List Char} {bytes : List UInt8}
    (h : bytes? digits = some bytes) : ∀ c ∈ digits, (value? c).isSome = true := by
  fun_induction bytes? digits generalizing bytes with
  | case1 => nofun
  | case2 => cases h
  | case3 high low rest ih =>
    simp only [Option.bind_eq_bind, Option.bind_eq_some_iff] at h
    obtain ⟨h₁, hhigh, h₂, hlow, others, hrest, _⟩ := h
    intro c hc
    rcases List.mem_cons.1 hc with rfl | hc
    · rw [hhigh]; rfl
    rcases List.mem_cons.1 hc with rfl | hc
    · rw [hlow]; rfl
    exact ih hrest c hc

end Hex

/-! ## Groups -/

namespace Uuid

/-- An identifier has thirty-two digits. -/
theorem length_digits (u : Uuid) : (Hex.text u.bytes).length = 32 := by
  rw [Hex.length_text, u.length_bytes]

/-- The groups of digits, with nothing between them, are the digits. -/
theorem groups_eq_self (digits : List Char) :
    digits.take 8 ++ ((digits.drop 8).take 4 ++ ((digits.drop 12).take 4 ++
      ((digits.drop 16).take 4 ++ digits.drop 20))) = digits := by
  have hjoin : ∀ n, (digits.drop n).take 4 ++ digits.drop (n + 4) = digits.drop n := by
    intro n
    rw [← List.drop_drop, List.take_append_drop]
  rw [hjoin 16, hjoin 12, hjoin 8, List.take_append_drop]

/-- Without its hyphens the text of an identifier is its digits. -/
theorem filter_text (u : Uuid) : u.text.filter (· ≠ '-') = Hex.text u.bytes := by
  have hkeep : ∀ group : List Char, (∀ c ∈ group, c ∈ Hex.text u.bytes) →
      group.filter (· ≠ '-') = group := by
    intro group hgroup
    refine List.filter_eq_self.2 fun c hc => ?_
    exact decide_eq_true (Hex.ne_hyphen_of_mem_text (hgroup c hc))
  have hdrop : ∀ n, ∀ c ∈ (Hex.text u.bytes).drop n, c ∈ Hex.text u.bytes := fun n c hc =>
    List.mem_of_mem_drop hc
  have htake : ∀ n, ∀ c ∈ ((Hex.text u.bytes).drop n).take 4, c ∈ Hex.text u.bytes := fun n c hc =>
    hdrop n c (List.mem_of_mem_take hc)
  have hhyphen : ∀ rest : List Char, ('-' :: rest).filter (· ≠ '-') = rest.filter (· ≠ '-') :=
    fun rest => List.filter_cons_of_neg (by decide)
  simp only [text, List.append_assoc, List.cons_append, List.filter_append, hhyphen]
  rw [hkeep _ fun c hc => List.mem_of_mem_take hc, hkeep _ (htake 8), hkeep _ (htake 12),
    hkeep _ (htake 16), hkeep _ (hdrop 20), groups_eq_self]

/-- The text of an identifier has thirty-six characters. -/
theorem length_text (u : Uuid) : u.text.length = 36 := by
  simp [text, u.length_digits]

/-- The character behind a group is found at the length of the group. -/
theorem getElem?_length {group rest : List Char} {c : Char} {n : Nat} (h : group.length = n) :
    (group ++ c :: rest)[n]? = some c := by
  rw [← h, List.getElem?_append_right (Nat.le_refl _), Nat.sub_self]
  rfl

/-- What stands behind a group and one more character is found by the place behind them. -/
theorem getElem?_behind {group rest : List Char} {c : Char} {n : Nat} (h : group.length = n)
    (k : Nat) : (group ++ c :: rest)[n + 1 + k]? = rest[k]? := by
  rw [List.append_cons, List.getElem?_append_right (by simp [h])]
  simp [h]

/-- The hyphens stand where the canonical form has them. -/
theorem hyphens_text (u : Uuid) : [8, 13, 18, 23].all (u.text[·]? = some '-') = true := by
  have hlength := u.length_digits
  have hfirst : ((Hex.text u.bytes).take 8).length = 8 := by
    rw [List.length_take, hlength]
    rfl
  have hgroup : ∀ n ≤ 28, (((Hex.text u.bytes).drop n).take 4).length = 4 := by
    intro n hn
    rw [List.length_take, List.length_drop, hlength]
    omega
  simp only [text, List.append_assoc, List.cons_append, List.all_cons, List.all_nil, Bool.and_true,
    Bool.and_eq_true, decide_eq_true_eq]
  have hsecond := hgroup 8 (by decide)
  have hthird := hgroup 12 (by decide)
  have hfourth := hgroup 16 (by decide)
  refine ⟨getElem?_length hfirst, ?_, ?_, ?_⟩
  · exact (getElem?_behind hfirst 4).trans (getElem?_length hsecond)
  · exact (getElem?_behind hfirst 9).trans
      ((getElem?_behind hsecond 4).trans (getElem?_length hthird))
  · exact (getElem?_behind hfirst 14).trans
      ((getElem?_behind hsecond 9).trans
        ((getElem?_behind hthird 4).trans (getElem?_length hfourth)))

/-! ## Reading -/

/-- The digits of an identifier are read as it. -/
theorem ofHex?_text (u : Uuid) : ofHex? (Hex.text u.bytes) = some u := by
  rw [ofHex?, Hex.bytes?_text]
  exact dif_pos u.length_bytes

/-- The text of an identifier is no row of digits. -/
theorem ofHex?_eq_none (u : Uuid) : ofHex? u.text = none := by
  have hhyphen : '-' ∈ u.text := by
    simp [text]
  cases hbytes : Hex.bytes? u.text with
  | none => rw [ofHex?, hbytes]; rfl
  | some bytes =>
    have hdigit := Hex.value?_isSome_of_bytes? hbytes '-' hhyphen
    rw [Hex.value?_hyphen] at hdigit
    cases hdigit

/-- An identifier is read back from its text. -/
theorem read_text (u : Uuid) : Uuid.read u.text = .ok u := by
  have hcanonical : ofHyphenated? u.text = some u := by
    rw [ofHyphenated?, if_pos ⟨u.length_text, u.hyphens_text⟩, filter_text, ofHex?_text]
  have hread : read? u.text = some u := by
    rw [read?, ofHex?_eq_none, hcanonical]
    rfl
  rw [read, hread]

/-- The text of an identifier has no blanks around it. -/
theorem trim_text (u : Uuid) : Text.trim u.text = u.text := by
  refine Text.trim_of_forall fun c hc => ?_
  by_cases hhyphen : c = '-'
  · rw [hhyphen]
    decide
  · have hdigit : c ∈ u.text.filter (· ≠ '-') :=
      List.mem_filter.2 ⟨hc, decide_eq_true hhyphen⟩
    rw [filter_text] at hdigit
    exact Hex.isBlank_of_mem_text hdigit

end Uuid

end RowQuery
