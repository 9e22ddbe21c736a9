import RowQuery.Expr.Basic
import RowQuery.Text.CaseMap
import RowQuery.Text.Search
import RowQuery.Value.Arithmetic

/-!
# Values of expressions

An expression is evaluated from the leaves up, operands and arguments from left to right.
What a member of the row is worth is left to the caller: for a constant expression it is a
fault, for a given row the value that the row assigns to the name.

Main results:

- {lit}`Expr.eval` is the evaluator; {lit}`Expr.evalConst` is the case of no row.
- {lit}`Method.run` is what a method does with its target and arguments.
-/

namespace RowQuery

/-! ## Methods -/

/-- An argument that has to be a text. -/
def Method.textArgument (m : Method) (index : Nat) (v : Value) : Except Fault (List Char) :=
  match v with
  | .text s => .ok s.toList
  | _ => .error (Fault.evaluation (.argumentNotText m index))

/-- The piece of a text from a position on, of a length. -/
def Method.piece (text : List Char) (start length : Nat) : Except Fault Value :=
  if start + length ≤ text.length then
    .ok (.text (String.ofList ((text.drop start).take length)))
  else
    .error (Fault.evaluation (.pieceOutOfRange start length text.length))

/-- What a method does with a text and its arguments. -/
def Method.run (m : Method) (text : List Char) (args : List Value) : Except Fault Value :=
  match m, args with
  | .startsWith, [pattern] => do
    return .bool ((← m.textArgument 0 pattern).isPrefixOf text)
  | .endsWith, [pattern] => do
    return .bool ((← m.textArgument 0 pattern).isSuffixOf text)
  | .contains, [pattern] => do
    return .bool (Text.occursIn (← m.textArgument 0 pattern) text)
  | .toUpper, [] => .ok (.text (String.ofList (Text.toUpper text)))
  | .toLower, [] => .ok (.text (String.ofList (Text.toLower text)))
  | .trim, [] => .ok (.text (String.ofList (Text.trim text)))
  | .replace, [pattern, new] => do
    let pattern ← m.textArgument 0 pattern
    let new ← m.textArgument 1 new
    return .text (String.ofList (Text.replaceAll pattern new text))
  | .substring, [start] => do
    let start ← start.count
    Method.piece text start.toNat (text.length - start.toNat)
  | .substring, [start, length] => do
    let start ← start.count
    let length ← length.count
    Method.piece text start.toNat length.toNat
  | m, args => .error (Fault.evaluation (.argumentCount m args.length))

/-- The text that a method is called on. -/
def Method.target (m : Method) (v : Value) : Except Fault (List Char) :=
  match v with
  | .text s => .ok s.toList
  | .null => .error (Fault.evaluation (.targetNull m))
  | v => .error (Fault.evaluation (.targetNotText m v.ty))

/-- What a static method does with its arguments. -/
def Method.runStatic (m : Method) (args : List Value) : Except Fault Value :=
  match args with
  | [.null] => .ok (.bool true)
  | [.text s] => .ok (.bool s.isEmpty)
  | [v] => .error (Fault.evaluation (.subjectNotText m v.ty))
  | args => .error (Fault.evaluation (.argumentCount m args.length))

/-- The method of a call, provided that it takes that number of arguments. -/
def Method.resolve (name : String) (count : Nat) : Except Fault Method :=
  match Method.ofName? name with
  | none => .error (Fault.unsupported (.method name))
  | some m =>
    if m.accepts count then .ok m else .error (Fault.evaluation (.argumentCount m count))

/-! ## Evaluation -/

namespace Expr

mutual

/-- The value of an expression, where {lit}`member` gives the members of the row. -/
def eval (member : String → Except Fault Value) : Expr → Except Fault Value
  | row _ => .error (Fault.evaluation .rowReferenced)
  | value v => .ok v
  | captured _ v => .ok v
  | field base name _ =>
    if base.isRow then member name else .error (Fault.evaluation (.memberNotLocal name))
  | not e => do (← eval member e).negate
  | cast e ty => do (← eval member e).cast ty
  | binary op lhs rhs => do
    let a ← eval member lhs
    let b ← eval member rhs
    Value.operate op a b
  | call none name args => do
    let m ← Method.resolve name args.length
    let values ← evalList member args
    if m.isStatic then m.runStatic values
    else .error (Fault.evaluation (.targetMissing m))
  | call (some target) name args => do
    let m ← Method.resolve name args.length
    let values ← evalList member args
    if m.isStatic then m.runStatic values
    else
      let text ← m.target (← eval member target)
      m.run text values

/-- The values of several expressions, from left to right. -/
def evalList (member : String → Except Fault Value) : List Expr → Except Fault (List Value)
  | [] => .ok []
  | e :: rest => do
    let v ← eval member e
    let vs ← evalList member rest
    return v :: vs

end

/-- Without a row, a member has no value. -/
def noMember (name : String) : Except Fault Value :=
  .error (Fault.evaluation (.memberNotLocal name))

/-- The value of an expression that does not depend on the row. -/
def evalConst (e : Expr) : Except Fault Value :=
  e.eval noMember

end Expr

end RowQuery
