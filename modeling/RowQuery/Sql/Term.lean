import RowQuery.Expr.Operator
import RowQuery.Number.Integer

/-!
# Terms of SQL

What an expression becomes in a statement is a tree of its own kind, with columns in place of
members and placeholders in place of constants.  Its text has parentheses around every
operation between operands.

Main results:

- {lit}`Term.text` writes a term.
-/

namespace RowQuery.Sql

/-- A term of a statement. -/
inductive Term where
  | null
  /-- The placeholder of a number. -/
  | parameter (index : Nat)
  /-- An integer that is written out. -/
  | integer (n : Int)
  | column (name : String)
  /-- Two operands with an operator between them. -/
  | operation (op : BinaryOp) (left right : Term)
  /-- A test for null, or for its absence. -/
  | nullTest (negated : Bool) (t : Term)
  /-- A comparison with one, which makes a condition of a truth value. -/
  | isTrue (t : Term)
  | negation (t : Term)
  /-- A test for null or the empty text. -/
  | nullOrEmpty (t : Term)
  /-- A text match; anything may stand in front of the pattern and behind it. -/
  | like (t : Term) (before : Bool) (pattern : Term) (after : Bool)
  | upper (t : Term)
  | lower (t : Term)
  | trimmed (t : Term)
  | replaced (t pattern new : Term)
  /-- A piece of a text, from a start that is counted from zero. -/
  | piece (t start length : Term)
  deriving DecidableEq

namespace Term

/-- The text of a placeholder. -/
def placeholder (index : Nat) : String := "@" ++ index.repr

/-- The text of a term.  Positions in a text are counted from one, so one is added to the start
of a piece. -/
def text : Term → String
  | null => "NULL"
  | parameter index => placeholder index
  | integer n => Number.integerText n
  | column name => name
  | operation op left right => "(" ++ left.text ++ " " ++ op.sql ++ " " ++ right.text ++ ")"
  | nullTest negated t => "(" ++ t.text ++ (if negated then " IS NOT NULL)" else " IS NULL)")
  | isTrue t => "(" ++ t.text ++ " = 1)"
  | negation t => "NOT " ++ t.text
  | nullOrEmpty t => "(" ++ t.text ++ " IS NULL OR " ++ t.text ++ " = '')"
  | like t before pattern after =>
    "(" ++ t.text ++ " LIKE " ++ (if before then "'%' + " else "") ++ pattern.text ++
      (if after then " + '%')" else ")")
  | upper t => "UPPER(" ++ t.text ++ ")"
  | lower t => "LOWER(" ++ t.text ++ ")"
  | trimmed t => "RTRIM(LTRIM(" ++ t.text ++ "))"
  | replaced t pattern new =>
    "REPLACE(" ++ t.text ++ ", " ++ pattern.text ++ ", " ++ new.text ++ ")"
  | piece t start length =>
    "SUBSTRING(" ++ t.text ++ ", " ++ start.text ++ " + 1, " ++ length.text ++ ")"

end Term

end RowQuery.Sql
