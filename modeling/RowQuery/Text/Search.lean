/-!
# Searching and replacing in a text

Texts are lists of characters.  A pattern is looked for from left to right; a replacement
goes on behind the piece it replaced, so replaced pieces never overlap.

Main results:

- {lit}`occursIn_iff` says that {lit}`occursIn` holds exactly when the text can be written
  with the pattern as a middle piece.
- {lit}`replaceAll` puts the new text at every boundary when the pattern is empty.
-/

namespace RowQuery.Text

/-- The pattern is a contiguous piece of the text. -/
def occursIn (pattern : List Char) : List Char → Bool
  | [] => pattern.isEmpty
  | c :: rest => pattern.isPrefixOf (c :: rest) || occursIn pattern rest

/-- A pattern occurs in a text exactly when it is one of its infixes. -/
theorem occursIn_iff {pattern text : List Char} :
    occursIn pattern text = true ↔ pattern <:+: text := by
  induction text with
  | nil => simp [occursIn, List.infix_nil]
  | cons c rest ih => simp [occursIn, List.infix_cons_iff, ih]

/-- The new text stands before every character and at the end. -/
def interleave (new : List Char) : List Char → List Char
  | [] => new
  | c :: rest => new ++ c :: interleave new rest

/-- Replaces every occurrence of a pattern whose characters are {lit}`head` and then
{lit}`tail`. -/
def replaceFrom (head : Char) (tail new : List Char) (text : List Char) : List Char :=
  match text with
  | [] => []
  | c :: rest =>
    if (head :: tail).isPrefixOf (c :: rest) then
      new ++ replaceFrom head tail new (rest.drop tail.length)
    else
      c :: replaceFrom head tail new rest
  termination_by text.length
  decreasing_by
    · exact Nat.lt_succ_of_le (List.drop_sublist _ _).length_le
    · exact Nat.lt_succ_self _

/-- Replaces every occurrence of a pattern from left to right.  An empty pattern occurs at
every boundary between characters and at both ends. -/
def replaceAll (pattern new text : List Char) : List Char :=
  match pattern with
  | [] => interleave new text
  | head :: tail => replaceFrom head tail new text

end RowQuery.Text
