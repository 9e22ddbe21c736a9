import RowQuery.Text.Ascii

/-!
# String methods

The methods that an expression may call.  They are looked up by name without regard to
ASCII case; no other method is known.

Main results:

- {lit}`Method.ofName?` finds a method; {lit}`ofName?_name` says that it finds every method
  by its own name.
- {lit}`Method.accepts` says how many arguments a method takes.
-/

namespace RowQuery

/-- A string method. -/
inductive Method where
  | startsWith
  | endsWith
  | contains
  | isNullOrEmpty
  | toUpper
  | toLower
  | replace
  | trim
  | substring
  deriving DecidableEq, Repr

namespace Method

/-- All methods. -/
def all : List Method :=
  [startsWith, endsWith, contains, isNullOrEmpty, toUpper, toLower, replace, trim, substring]

/-- The name of a method. -/
def name : Method → String
  | startsWith => "StartsWith"
  | endsWith => "EndsWith"
  | contains => "Contains"
  | isNullOrEmpty => "IsNullOrEmpty"
  | toUpper => "ToUpper"
  | toLower => "ToLower"
  | replace => "Replace"
  | trim => "Trim"
  | substring => "Substring"

/-- The method with this name, whatever its ASCII case. -/
def ofName? (name : String) : Option Method :=
  all.find? fun m => Text.sameName m.name name

/-- Every method is found by its own name. -/
theorem ofName?_name (m : Method) : ofName? m.name = some m := by
  cases m <;> decide +kernel

/-- The method has no target and takes its subject as an argument. -/
def isStatic (m : Method) : Bool :=
  m = isNullOrEmpty

/-- The method answers yes or no. -/
def isPredicate : Method → Bool
  | startsWith | endsWith | contains | isNullOrEmpty => true
  | toUpper | toLower | replace | trim | substring => false

/-- The least and the greatest number of arguments, the target not counted. -/
def arity : Method → Nat × Nat
  | toUpper | toLower | trim => (0, 0)
  | startsWith | endsWith | contains | isNullOrEmpty => (1, 1)
  | replace => (2, 2)
  | substring => (1, 2)

/-- The method takes this number of arguments. -/
def accepts (m : Method) (arguments : Nat) : Bool :=
  m.arity.1 ≤ arguments && arguments ≤ m.arity.2

end Method

end RowQuery
