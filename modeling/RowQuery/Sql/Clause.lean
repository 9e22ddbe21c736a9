import RowQuery.Text.Ascii
import RowQuery.Text.Blank

/-!
# Clauses and their keywords

A clause may be written with or without the keyword that opens it.  The keyword is one word
or two, in any ASCII case, with any blanks between and behind its words.

Main results:

- {lit}`Clause.strip` removes the keyword if it is there and trims what is left.
- {lit}`Clause.write` puts the keyword in front.
-/

namespace RowQuery.Sql

/-- A clause of a statement that selects rows. -/
inductive Clause where
  | columns
  | source
  | filter
  | grouping
  | ordering
  deriving DecidableEq, Repr

namespace Clause

/-- The words of the keyword that opens a clause. -/
def words : Clause → List String
  | columns => ["SELECT"]
  | source => ["FROM"]
  | filter => ["WHERE"]
  | grouping => ["GROUP", "BY"]
  | ordering => ["ORDER", "BY"]

/-- The keyword that opens a clause. -/
def keyword (k : Clause) : String :=
  " ".intercalate k.words

/-- A clause with its keyword. -/
def write (k : Clause) (body : String) : String :=
  k.keyword ++ " " ++ body

/-- The text ends here or goes on with a blank. -/
def atBoundary : List Char → Bool
  | [] => true
  | c :: _ => Text.isBlank c

/-- What follows a word and the blanks behind it, if the text starts with the word. -/
def afterWord? (word : String) (text : List Char) : Option (List Char) :=
  let rest := text.drop word.length
  if (text.take word.length).map Char.toLower = Text.foldAscii word ∧ atBoundary rest then
    some (Text.trimStart rest)
  else
    none

/-- What follows several words, if the text starts with them. -/
def afterWords? : List String → List Char → Option (List Char)
  | [], text => some text
  | word :: words, text => do afterWords? words (← afterWord? word text)

/-- The text without the keyword at its start and without blanks around. -/
def stripChars (k : Clause) (text : List Char) : List Char :=
  match afterWords? k.words (Text.trimStart text) with
  | some rest => Text.trimEnd rest
  | none => Text.trim text

/-- The text without the keyword at its start and without blanks around. -/
def strip (k : Clause) (text : String) : String :=
  String.ofList (k.stripChars text.toList)

end Clause

end RowQuery.Sql
