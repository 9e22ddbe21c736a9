import RowQuery.Calendar.Pattern
import RowQuery.Expr.Method
import RowQuery.Expr.Operator
import RowQuery.Number.Reader
import RowQuery.Ty
import RowQuery.Uuid

/-!
# Faults

A fault says what went wrong and why: a chain of links from the outermost to the root cause.
Each link is a cause of its own with its data; its wording is one function of it.

Main results:

- {lit}`Link.text` words one link and {lit}`Fault.message` the whole chain.
- {lit}`Fault.under` puts a fault below another one; {lit}`under_single` says what that is
  for a single link that nobody else holds.
-/

namespace RowQuery

/-! ## Reasons -/

/-- What a reader found wrong with a text. -/
inductive ReadingError where
  | integer (e : Number.IntegerError)
  | double (e : Number.DoubleError)
  | moment (e : Calendar.PatternError)
  | uuid (e : UuidError)
  deriving DecidableEq

/-- The wording of a reading error. -/
def ReadingError.text : ReadingError → String
  | integer e => e.message
  | double e => e.message
  | moment e => e.message
  | uuid e => e.message

/-- Why a value cannot be converted. -/
inductive ConversionReason where
  | mismatch (source : Ty) (target : String)
  | unreadable
  | notAVariant (name enumName : String)
  | described (text : String)
  deriving DecidableEq

/-- The wording of a conversion reason. -/
def ConversionReason.text : ConversionReason → String
  | mismatch source target => s!"cannot convert {source.label} to {target}"
  | unreadable => "cannot parse value"
  | notAVariant name enumName => s!"`{name}` is not a variant of {enumName}"
  | described text => text

/-- Why an expression has no value. -/
inductive EvaluationReason where
  | rowReferenced
  | memberNotLocal (name : String)
  | notNegatable (ty : Ty)
  | notComparable (left right : Ty)
  | notLogical (op : Connective)
  | notArithmetic (op : Arithmetic) (left right : Ty)
  | outOfRange (op : Arithmetic)
  | argumentCount (method : Method) (count : Nat)
  | subjectNotText (method : Method) (ty : Ty)
  | targetMissing (method : Method)
  | targetNull (method : Method)
  | targetNotText (method : Method) (ty : Ty)
  | argumentNotText (method : Method) (index : Nat)
  | pieceOutOfRange (start length size : Nat)
  | described (text : String)
  deriving DecidableEq

/-- The wording of an evaluation reason. -/
def EvaluationReason.text : EvaluationReason → String
  | rowReferenced => "expression references the predicate argument"
  | memberNotLocal name => s!"member `{name}` cannot be evaluated locally"
  | notNegatable ty => s!"cannot negate a value of type {ty.label}"
  | notComparable left right => s!"cannot compare {left.label} with {right.label}"
  | notLogical op => s!"logical {op.symbol} requires boolean operands"
  | notArithmetic op left right => s!"cannot apply `{op.symbol}` to {left.label} and {right.label}"
  | outOfRange op => s!"integer overflow or division by zero in `{op.symbol}`"
  | argumentCount method count => s!"`{method.name}` called with {count} arguments"
  | subjectNotText method ty => s!"`{method.name}` expects a string, found {ty.label}"
  | targetMissing method => s!"`{method.name}` requires a target"
  | targetNull method => s!"`{method.name}` called on a null string"
  | targetNotText method ty => s!"`{method.name}` expects a string target, found {ty.label}"
  | argumentNotText method index => s!"argument {index} of `{method.name}` must be a string"
  | pieceOutOfRange start length size =>
    s!"`Substring({start}, {length})` is out of range for a string of length {size}"
  | described text => text

/-- Why a query has no meaning. -/
inductive QueryReason where
  | skipWithoutOrder
  | windowOverflow
  | countNotConstant
  | orderMissing (operator : String)
  | argumentCount (method : Method) (count : Nat)
  | targetMissing (method : Method)
  | described (text : String)
  deriving DecidableEq

/-- The wording of a query reason. -/
def QueryReason.text : QueryReason → String
  | skipWithoutOrder => "Skip requires OrderBy; row order is undefined without it"
  | windowOverflow => "Skip + Take overflows"
  | countNotConstant => "count must be an integer constant"
  | orderMissing operator => s!"{operator} without a preceding OrderBy"
  | argumentCount method count => s!"`{method.name}` called with {count} arguments"
  | targetMissing method => s!"`{method.name}` requires a target"
  | described text => text

/-- What has no counterpart in SQL. -/
inductive UnsupportedReason where
  | rowAsValue
  | memberOfComputed (name : String)
  | memberUnmapped (name : String)
  | method (name : String)
  | named (name : String)
  | afterTerminal (operator terminal : String)
  | afterProjection (operator : String)
  | overConstant (operator : String)
  | skipAfterTake
  | takeWithoutSkip (operator : String)
  | skipOnDialect (operator dialect : String)
  | described (text : String)
  deriving DecidableEq

/-- The wording of an unsupported operation. -/
def UnsupportedReason.text : UnsupportedReason → String
  | rowAsValue => "the query parameter used as a value"
  | memberOfComputed name => s!"member `{name}` of a computed value"
  | memberUnmapped name => s!"member `{name}` has no mapped column"
  | method name => s!"method `{name}`"
  | named name => name
  | afterTerminal operator terminal => s!"{operator} after {terminal}"
  | afterProjection operator => s!"{operator} after the initial projection"
  | overConstant operator => s!"{operator} over a constant expression"
  | skipAfterTake => "Skip after Take"
  | takeWithoutSkip operator => s!"{operator} with Take and no Skip"
  | skipOnDialect operator dialect => s!"{operator} with Skip on the {dialect} dialect"
  | described text => text

/-- Why a row cannot be read. -/
inductive RowReason where
  | closed
  | notPositioned
  | exhausted
  | ordinal (n : Nat)
  | unreadable (row : Nat)
  deriving DecidableEq

/-- The wording of a row reason. -/
def RowReason.text : RowReason → String
  | closed => "cursor is closed"
  | notPositioned => "cursor is not positioned on a row"
  | exhausted => "cursor is exhausted"
  | ordinal n => s!"field ordinal {n} out of range"
  | unreadable row => s!"failed to read row {row}"

/-- Why a row cannot be turned into an instance. -/
inductive MappingReason where
  | notPopulated (property typeName : String)
  | setterMissing (property typeName : String)
  | columnsMissing (typeName : String)
  | fieldMissing (name : String)
  deriving DecidableEq

/-- The wording of a mapping reason. -/
def MappingReason.text : MappingReason → String
  | notPopulated property typeName => s!"cannot populate `{property}` of `{typeName}`"
  | setterMissing property typeName =>
    s!"injected property `{property}` of `{typeName}` has no setter"
  | columnsMissing typeName => s!"cannot read `{typeName}` from a row with no columns"
  | fieldMissing name => s!"no field `{name}`"

/-! ## Links -/

/-- The kinds of faults that callers tell apart. -/
inductive FaultKind where
  | alreadyConfigured
  | ambiguousConstructor
  | conversion
  | driver
  | evaluation
  | invalidQuery
  | unsupported
  | other
  deriving DecidableEq, Repr

/-- One link of a fault. -/
inductive Link where
  | alreadyConfigured (clause : String)
  | ambiguousConstructor (typeName : String) (candidates : Nat)
  | conversion (reason : ConversionReason)
  | driver (text : String)
  | evaluation (reason : EvaluationReason)
  | invalidQuery (reason : QueryReason)
  | unsupported (reason : UnsupportedReason)
  | row (reason : RowReason)
  | mapping (reason : MappingReason)
  | unknownDialect (name : String)
  | reading (error : ReadingError)
  | foreign (text : String)
  | plain (text : String)
  deriving DecidableEq

namespace Link

/-- The kind of a link. -/
def kind : Link → FaultKind
  | alreadyConfigured _ => .alreadyConfigured
  | ambiguousConstructor _ _ => .ambiguousConstructor
  | conversion _ => .conversion
  | driver _ => .driver
  | evaluation _ => .evaluation
  | invalidQuery _ => .invalidQuery
  | unsupported _ => .unsupported
  | row _ | mapping _ | unknownDialect _ | reading _ | foreign _ | plain _ => .other

/-- The wording of a link. -/
def text : Link → String
  | alreadyConfigured clause => s!"{clause} clause already configured"
  | ambiguousConstructor typeName candidates =>
    s!"cannot select a constructor for `{typeName}`: " ++
      s!"no parameterless constructor and {candidates} candidate constructors"
  | conversion reason => s!"conversion failed: {reason.text}"
  | driver text => text
  | evaluation reason => s!"expression evaluation failed: {reason.text}"
  | invalidQuery reason => s!"invalid query: {reason.text}"
  | unsupported reason => s!"unsupported operation: {reason.text}"
  | row reason => reason.text
  | mapping reason => reason.text
  | unknownDialect name => s!"unknown SQL dialect `{name}`"
  | reading error => error.text
  | foreign text => text
  | plain text => text

end Link

/-! ## Chains -/

/-- A fault: its outermost link and the links that caused it, one after the other. -/
structure Fault where
  head : Link
  causes : List Link
  deriving DecidableEq

namespace Fault

/-- The fault of a single link. -/
def of (link : Link) : Fault := ⟨link, []⟩

instance : Coe Link Fault := ⟨of⟩

/-- All links, outermost first. -/
def links (f : Fault) : List Link := f.head :: f.causes

/-- The kind of the outermost link. -/
def kind (f : Fault) : FaultKind := f.head.kind

/-- The wording of a chain. -/
def chainText (links : List Link) : String :=
  ": ".intercalate (links.map Link.text)

/-- The wording of the whole fault. -/
def message (f : Fault) : String := chainText f.links

/-- The innermost link. -/
def root (f : Fault) : Link := f.causes.getLastD f.head

/-- Puts a new outermost link in front. -/
def context (f : Fault) (link : Link) : Fault := ⟨link, f.links⟩

/-- Puts a fault below another one.  A fault of one link that nobody else holds takes it as
its cause.  Any other is left alone: its outermost wording becomes a plain link in front. -/
def under (f outer : Fault) (held : Bool) : Fault :=
  if outer.causes.isEmpty && !held then f.context outer.head
  else f.context (.plain outer.head.text)

/-- Below a single link that nobody else holds, the fault just gets that link in front. -/
@[simp] theorem under_single (f : Fault) (link : Link) :
    f.under (of link) false = f.context link := rfl

/-- The wordings met on the way from a chain to what lies behind it.  A driver's link leads
to the driver's own error and to what that wraps, a link from elsewhere to the error that it
carries; every other link leads to its cause. -/
def sourcesOf : List Link → List String
  | [] => []
  | .driver text :: _ => [text, text]
  | .foreign text :: _ => [text]
  | .reading error :: _ => [error.text]
  | _ :: rest => if rest.isEmpty then [] else chainText rest :: sourcesOf rest

/-- The wordings of all sources of a fault. -/
def sources (f : Fault) : List String := sourcesOf f.links

/-! ## Common faults -/

/-- A value of one type that has no counterpart in another. -/
def mismatch (source target : Ty) : Fault :=
  of (.conversion (.mismatch source target.label))

/-- A text that its reader refused. -/
def ofReading (error : ReadingError) : Fault :=
  (of (.reading error)).context (.conversion .unreadable)

/-- An expression without a value. -/
def evaluation (reason : EvaluationReason) : Fault := of (.evaluation reason)

/-- A query without a meaning. -/
def invalidQuery (reason : QueryReason) : Fault := of (.invalidQuery reason)

/-- An operation without a counterpart in SQL. -/
def unsupported (reason : UnsupportedReason) : Fault := of (.unsupported reason)

end Fault

end RowQuery
