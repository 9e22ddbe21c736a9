/-!
# Binary operators

The infix operators of expressions, in three families: comparisons, logical connectives and
arithmetic.

Main results:

- {lit}`BinaryOp.symbol` names an operator in messages and {lit}`BinaryOp.sql` in SQL.
-/

namespace RowQuery

/-! ## Families -/

/-- A comparison of two operands. -/
inductive Comparison where
  | eq
  | ne
  | ge
  | gt
  | le
  | lt
  deriving DecidableEq, Repr

/-- A connective of two conditions. -/
inductive Connective where
  | and
  | or
  deriving DecidableEq, Repr

/-- A computation with two operands. -/
inductive Arithmetic where
  | add
  | sub
  | mul
  | div
  | rem
  deriving DecidableEq, Repr

/-- An infix operator. -/
inductive BinaryOp where
  | compare (op : Comparison)
  | connect (op : Connective)
  | compute (op : Arithmetic)
  deriving DecidableEq, Repr

/-! ## Symbols -/

/-- The symbol of a comparison in messages. -/
def Comparison.symbol : Comparison → String
  | eq => "=="
  | ne => "!="
  | ge => ">="
  | gt => ">"
  | le => "<="
  | lt => "<"

/-- The symbol of a comparison in SQL. -/
def Comparison.sql : Comparison → String
  | eq => "="
  | ne => "<>"
  | op => op.symbol

/-- The symbol of a connective in messages. -/
def Connective.symbol : Connective → String
  | and => "&&"
  | or => "||"

/-- The word of a connective in SQL. -/
def Connective.sql : Connective → String
  | and => "AND"
  | or => "OR"

/-- The symbol of a computation, in messages and in SQL. -/
def Arithmetic.symbol : Arithmetic → String
  | add => "+"
  | sub => "-"
  | mul => "*"
  | div => "/"
  | rem => "%"

namespace BinaryOp

/-- The symbol of an operator in messages. -/
def symbol : BinaryOp → String
  | compare op => op.symbol
  | connect op => op.symbol
  | compute op => op.symbol

/-- The symbol of an operator in SQL. -/
def sql : BinaryOp → String
  | compare op => op.sql
  | connect op => op.sql
  | compute op => op.symbol

/-- The operator compares its operands. -/
def isComparison : BinaryOp → Bool
  | compare _ => true
  | _ => false

/-- The operator joins two conditions. -/
def isLogical : BinaryOp → Bool
  | connect _ => true
  | _ => false

/-- The operator computes with its operands. -/
def isArithmetic : BinaryOp → Bool
  | compute _ => true
  | _ => false

end BinaryOp

end RowQuery
