import RowQuery.Expr.Basic
import RowQuery.Schema.Table
import RowQuery.Sql.Term

/-!
# From expressions to terms

An expression becomes a term of SQL over the columns of a table.  Every constant that is not
null is recorded, and a placeholder with the number of the record takes its place; the
constants are recorded in the order in which they are read.

Main results:

- {lit}`Term.ofExpr` makes a term of an expression, {lit}`Term.ofCondition` one that can stand
  as a condition.
- {lit}`Method.term` is the term of a call.
-/

namespace RowQuery

namespace Sql

/-- A computation that records constants behind those recorded before. -/
abbrev Recording := StateT (List Value) (Except Fault)

/-- Records a constant; its placeholder has the number of constants before it. -/
def record (v : Value) : Recording Term := do
  let recorded ← get
  set (recorded ++ [v])
  return .parameter recorded.length

/-- The term of a constant. -/
def Term.ofValue (v : Value) : Recording Term :=
  if v.isNull then return .null else record v

/-- The column of a member. -/
def Term.ofMember (table : Table) (base : Expr) (name : String) : Recording Term :=
  if base.isRow then
    match table.ofMember? name with
    | some c => return .column c.name
    | none => throw (Fault.unsupported (.memberUnmapped name))
  else
    throw (Fault.unsupported (.memberOfComputed name))

/-- The greatest length of a piece, for a piece that runs to the end. -/
def longestPiece : Int := 2147483647

end Sql

namespace Expr

/-- The expression is null, under any conversions. -/
def isNullConstant : Expr → Bool
  | value v => v.isNull
  | captured _ v => v.isNull
  | cast e _ => e.isNullConstant
  | _ => false

/-- The expression is a truth value and no condition of SQL. -/
def isBareTruth : Expr → Bool
  | field _ _ ty => ty.core = .bool
  | captured _ v => v.bool?.isSome
  | value v => v.bool?.isSome
  | _ => false

/-- The integer that the expression is a constant of. -/
def integerConstant? : Expr → Option Int
  | value (.int16 n) => some n.toInt
  | value (.int32 n) => some n.toInt
  | value (.int64 n) => some n.toInt
  | _ => none

/-- The term of an expression, made a condition if the expression is a bare truth value. -/
def asCondition (e : Expr) (t : Sql.Term) : Sql.Term :=
  if e.isBareTruth then .isTrue t else t

end Expr

namespace BinaryOp

/-- The operator tests for equality, or for inequality, which is what is answered. -/
def equality? : BinaryOp → Option Bool
  | compare .eq => some false
  | compare .ne => some true
  | _ => none

end BinaryOp

namespace Method

/-- The arguments of the method are written out when they are integer constants. -/
def writesIntegers (m : Method) : Bool := m = substring

/-- The term of a call with a target. -/
def term (m : Method) (t : Sql.Term) (args : List Sql.Term) : Except Fault Sql.Term :=
  match m, args with
  | startsWith, [p] => .ok (.like t false p true)
  | endsWith, [p] => .ok (.like t true p false)
  | contains, [p] => .ok (.like t true p true)
  | toUpper, [] => .ok (.upper t)
  | toLower, [] => .ok (.lower t)
  | trim, [] => .ok (.trimmed t)
  | replace, [p, new] => .ok (.replaced t p new)
  | substring, [start] => .ok (.piece t start (.integer Sql.longestPiece))
  | substring, [start, length] => .ok (.piece t start length)
  | m, args => .error (Fault.invalidQuery (.argumentCount m args.length))

/-- The term of a static call. -/
def staticTerm (m : Method) (args : List Sql.Term) : Except Fault Sql.Term :=
  match args with
  | [subject] => .ok (.nullOrEmpty subject)
  | args => .error (Fault.invalidQuery (.argumentCount m args.length))

/-- The method of a call in a query, provided that it takes that number of arguments. -/
def resolveInQuery (name : String) (count : Nat) : Except Fault Method :=
  match ofName? name with
  | none => .error (Fault.unsupported (.method name))
  | some m =>
    if m.accepts count then .ok m else .error (Fault.invalidQuery (.argumentCount m count))

end Method

namespace Sql.Term

mutual

/-- The term of an expression over the columns of a table.  A conversion leaves no trace, and a
comparison with null becomes a test for null. -/
def ofExpr (table : Table) : Expr → Recording Term
  | .row _ => throw (Fault.unsupported .rowAsValue)
  | .value v => ofValue v
  | .captured _ v => ofValue v
  | .field base name _ => ofMember table base name
  | .not e => do return .negation (e.asCondition (← ofExpr table e))
  | .cast e _ => ofExpr table e
  | .call none name args => do
    let m ← Method.resolveInQuery name args.length
    if m.isStatic then m.staticTerm (← ofArguments table m.writesIntegers args)
    else throw (Fault.invalidQuery (.targetMissing m))
  | .call (some target) name args => do
    let m ← Method.resolveInQuery name args.length
    if m.isStatic then m.staticTerm (← ofArguments table m.writesIntegers args)
    else
      let t ← ofExpr table target
      m.term t (← ofArguments table m.writesIntegers args)
  | .binary op lhs rhs =>
    match op.equality?, rhs.isNullConstant, lhs.isNullConstant with
    | some negated, true, _ => do return .nullTest negated (← ofExpr table lhs)
    | some negated, false, true => do return .nullTest negated (← ofExpr table rhs)
    | _, _, _ => do
      let left ← ofExpr table lhs
      let right ← ofExpr table rhs
      if op.isLogical then
        return .operation op (lhs.asCondition left) (rhs.asCondition right)
      else
        return .operation op left right

/-- The terms of arguments, from left to right.  Integer constants may be written out. -/
def ofArguments (table : Table) (written : Bool) : List Expr → Recording (List Term)
  | [] => return []
  | e :: rest => do
    let t ←
      match written, e.integerConstant? with
      | true, some n => pure (.integer n)
      | _, _ => ofExpr table e
    return t :: (← ofArguments table written rest)

end

/-- The term of an expression that stands as a condition. -/
def ofCondition (table : Table) (e : Expr) : Recording Term := do
  return e.asCondition (← ofExpr table e)

end Sql.Term

end RowQuery
