import RowQuery.Rows.Command
import RowQuery.Text.Ascii

/-!
# Placeholders

A placeholder is a name with an at sign in front.  It stands outside of quoted pieces and
ends before an ASCII blank, a comma, a closing parenthesis or the end of the text.  Names
with two at signs belong to the database.

Placeholders get their values from sources.  The first source whose text names a placeholder
owns it; the placeholders of a source take its values one after the other, in the order in
which the statement first names them.

Main results:

- {lit}`placeholders` lists the placeholders of a text in order.
- {lit}`bindings` gives one value to each distinct placeholder.
-/

namespace RowQuery.Sql

/-! ## Scanning -/

/-- The character ends a placeholder. -/
def isTerminator (c : Char) : Bool :=
  Text.isAsciiBlank c || c == ',' || c == ')'

/-- The characters behind an at sign name a placeholder. -/
def isName : List Char → Bool
  | [] => false
  | c :: _ => c ≠ '@'

/-- The tokens behind a point of the text, which is inside a quoted piece or not. -/
def tokens (quoted : Bool) (text : List Char) : List (List Char) :=
  match text with
  | [] => []
  | c :: rest =>
    if c = '\'' then tokens (!quoted) rest
    else if quoted || c ≠ '@' then tokens quoted rest
    else
      let name := rest.takeWhile (!isTerminator ·)
      let behind := tokens quoted (rest.dropWhile (!isTerminator ·))
      if isName name then (c :: name) :: behind else behind
  termination_by text.length
  decreasing_by
    · exact Nat.lt_succ_self _
    · exact Nat.lt_succ_self _
    · exact Nat.lt_succ_of_le (List.dropWhile_sublist _).length_le

/-- The placeholders of a text, each as often as it occurs. -/
def placeholders (text : String) : List String :=
  (tokens false text.toList).map String.ofList

/-! ## Binding -/

/-- A text and the values of its placeholders. -/
structure ParameterSource where
  text : String
  values : List Value
  deriving DecidableEq

/-- A source whose placeholders are known, with the values that are left. -/
structure Queue where
  names : List String
  values : List Value

/-- The source as a queue. -/
def ParameterSource.queue (s : ParameterSource) : Queue :=
  ⟨placeholders s.text, s.values⟩

/-- Takes the next value of the first queue that owns a name.  A queue without values and a
name without an owner give null. -/
def draw (name : String) : List Queue → Value × List Queue
  | [] => (.null, [])
  | q :: rest =>
    if q.names.contains name then (q.values.headD .null, { q with values := q.values.tail } :: rest)
    else
      let (v, rest') := draw name rest
      (v, q :: rest')

/-- Gives a value to each name that was not bound before. -/
def bindFrom (bound : List String) (queues : List Queue) : List String → List (String × Value)
  | [] => []
  | name :: names =>
    if bound.contains name then bindFrom bound queues names
    else
      let (v, queues') := draw name queues
      (name, v) :: bindFrom (name :: bound) queues' names

/-- The value of each distinct placeholder of a statement, in the order of first
occurrence. -/
def bindings (sql : String) (sources : List ParameterSource) : List (String × Value) :=
  bindFrom [] (sources.map ParameterSource.queue) (placeholders sql)

/-- Adds the value of each placeholder to a command. -/
def bind (sql : String) (sources : List ParameterSource) (c : Command) : Command :=
  (bindings sql sources).foldl (fun c (name, v) => c.add name v) c

end RowQuery.Sql
