/-!
# Blank characters and trimming

The blank characters are those of the Unicode property White_Space.  Trimming removes them
from the two ends of a text and leaves the inside alone.

Main results:

- {lit}`isBlank` holds of the twenty-five blank characters.
- {lit}`trim` cuts a text to the piece between its first and its last character that is
  not blank.
-/

namespace RowQuery.Text

/-! ## The property -/

/-- The code points of the property White_Space, as ranges. -/
def blankRanges : List (Nat × Nat) :=
  [(0x09, 0x0D), (0x20, 0x20), (0x85, 0x85), (0xA0, 0xA0), (0x1680, 0x1680), (0x2000, 0x200A),
   (0x2028, 0x2029), (0x202F, 0x202F), (0x205F, 0x205F), (0x3000, 0x3000)]

/-- A character is blank when it has the property White_Space. -/
def isBlank (c : Char) : Bool :=
  blankRanges.any fun range => range.1 ≤ c.toNat && c.toNat ≤ range.2

/-! ## Trimming -/

/-- Removes the blanks at the start. -/
def trimStart (text : List Char) : List Char :=
  text.dropWhile isBlank

/-- Removes the blanks at the end. -/
def trimEnd (text : List Char) : List Char :=
  (text.reverse.dropWhile isBlank).reverse

/-- Removes the blanks at both ends. -/
def trim (text : List Char) : List Char :=
  trimEnd (trimStart text)

/-- Removes the blanks at both ends of a string. -/
def trimmed (text : String) : String :=
  String.ofList (trim text.toList)

end RowQuery.Text
