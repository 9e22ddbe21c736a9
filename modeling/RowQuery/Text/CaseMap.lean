import RowQuery.Text.CaseTable

/-!
# Full upper and lower case

Every character has an upper-case and a lower-case form of one or more characters.  The
forms do not depend on the neighbours, with one exception: a capital sigma at the end of a
word is lowered to the final sigma.

Main results:

- {lit}`toUpper` maps each character on its own; {lit}`toUpper_append` follows.
- {lit}`toLower` looks at what stands before and behind a capital sigma and nowhere else.
-/

namespace RowQuery.Text

/-! ## One character -/

/-- The image of a code point under the first run that holds it. -/
def runImage (runs : List (Nat × Nat × Nat × Nat)) (point : Nat) : Option Nat :=
  runs.findSome? fun (first, last, step, image) =>
    if first ≤ point ∧ point ≤ last ∧ (point - first) % step = 0 then
      some (image + (point - first))
    else
      none

/-- The form of a character: its expansion if it has one, else its image in the runs, else
the character itself. -/
def caseForm (expansions : List (Nat × List Nat)) (runs : List (Nat × Nat × Nat × Nat))
    (c : Char) : List Char :=
  match expansions.lookup c.toNat with
  | some points => points.map Char.ofNat
  | none =>
    match runImage runs c.toNat with
    | some point => [Char.ofNat point]
    | none => [c]

/-- The upper-case form of a character. -/
def upperForm (c : Char) : List Char :=
  caseForm upperExpansions upperRuns c

/-- The lower-case form of a character, wherever it stands. -/
def lowerForm (c : Char) : List Char :=
  caseForm lowerExpansions lowerRuns c

/-- A code point lies in one of the ranges. -/
def inRanges (ranges : List (Nat × Nat)) (c : Char) : Bool :=
  ranges.any fun range => range.1 ≤ c.toNat && c.toNat ≤ range.2

/-- The character has the property Cased. -/
def isCased (c : Char) : Bool :=
  inRanges casedRanges c

/-- The character has the property Case_Ignorable. -/
def isCaseIgnorable (c : Char) : Bool :=
  inRanges caseIgnorableRanges c

/-! ## Whole texts -/

/-- The text in upper case. -/
def toUpper (text : List Char) : List Char :=
  text.flatMap upperForm

/-- Behind some characters that do not count for case, a cased one follows. -/
def leadsToCased (text : List Char) : Bool :=
  match text.dropWhile isCaseIgnorable with
  | [] => false
  | c :: _ => isCased c

/-- Lowers a text, given what stands before it in reverse.  A capital sigma becomes the
final sigma when a cased character stands before it and none behind it. -/
def lowerFrom (before : List Char) : List Char → List Char
  | [] => []
  | c :: rest =>
    let form :=
      if c = 'Σ' then
        if leadsToCased before && !leadsToCased rest then ['ς'] else ['σ']
      else
        lowerForm c
    form ++ lowerFrom (c :: before) rest

/-- The text in lower case. -/
def toLower (text : List Char) : List Char :=
  lowerFrom [] text

@[simp] theorem toUpper_append (a b : List Char) : toUpper (a ++ b) = toUpper a ++ toUpper b :=
  List.flatMap_append

end RowQuery.Text
