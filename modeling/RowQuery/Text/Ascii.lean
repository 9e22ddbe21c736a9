/-!
# Comparison without regard to ASCII case

Names of columns, properties, methods and enumeration variants are looked up without regard
to the case of the letters A to Z.  Letters outside ASCII are told apart.

Main results:

- {lit}`sameName` is an equivalence relation: {lit}`sameName_refl`, {lit}`sameName_symm` and
  {lit}`sameName_trans`.
-/

namespace RowQuery.Text

/-- The text with its ASCII letters in lower case. -/
def foldAscii (text : String) : List Char :=
  text.toList.map Char.toLower

/-- The text with its ASCII letters in upper case. -/
def upperAscii (text : String) : String :=
  String.ofList (text.toList.map Char.toUpper)

/-- Two names are the same when they differ at most in the case of ASCII letters. -/
def sameName (a b : String) : Bool :=
  foldAscii a == foldAscii b

theorem sameName_iff {a b : String} : sameName a b = true ↔ foldAscii a = foldAscii b := by
  simp [sameName]

@[simp] theorem sameName_refl (a : String) : sameName a a = true := by
  simp [sameName_iff]

theorem sameName_symm {a b : String} (h : sameName a b = true) : sameName b a = true := by
  rw [sameName_iff] at *
  exact h.symm

theorem sameName_trans {a b c : String} (hab : sameName a b = true) (hbc : sameName b c = true) :
    sameName a c = true := by
  rw [sameName_iff] at *
  exact hab.trans hbc

/-- Blanks of ASCII: the space, and the controls tab, line feed, form feed and return. -/
def isAsciiBlank (c : Char) : Bool :=
  c == ' ' || c == '\t' || c == '\n' || c == '\x0c' || c == '\r'

end RowQuery.Text
