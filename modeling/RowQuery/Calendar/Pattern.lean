import RowQuery.Calendar.DateTime
import RowQuery.Text.Blank

/-!
# Reading dates and times by pattern

A pattern is a list of items: a number that is one part of a moment, a character that has to
stand there, a stretch of blanks, or the fraction of a second.  A text is matched item by
item from the left, and the first item that fails decides the error.

Main results:

- {lit}`Pattern.scan` collects the parts that a pattern finds and leaves no text over.
- {lit}`Date.read` and {lit}`DateTime.read` try the written forms in a fixed order;
  {lit}`DateTime.read` reports what the last form with a time found wrong.
-/

namespace RowQuery.Calendar

/-! ## Faults -/

/-- Why a text does not match a pattern. -/
inductive PatternError where
  | premature
  | unexpected
  | outOfRange
  | trailing
  deriving DecidableEq, Repr

/-- The wording of a pattern error. -/
def PatternError.message : PatternError → String
  | .premature => "premature end of input"
  | .unexpected => "input contains invalid characters"
  | .outOfRange => "input is out of range"
  | .trailing => "trailing input"

/-! ## Patterns -/

/-- The parts of a moment that are written as numbers. -/
inductive Part where
  | year
  | month
  | day
  | hour
  | minute
  | second
  deriving DecidableEq, Repr

/-- One item of a pattern. -/
inductive Item where
  | number (part : Part)
  | literal (c : Char)
  | blanks
  | fraction
  deriving DecidableEq, Repr

/-- A written form. -/
abbrev Pattern := List Item

/-- The parts read so far.  A part that the pattern does not name stays at its start. -/
structure Parts where
  year : Int := 0
  month : Nat := 1
  day : Nat := 1
  hour : Nat := 0
  minute : Nat := 0
  second : Nat := 0
  nano : Nat := 0
  deriving DecidableEq, Repr

/-- The numbers that a part may hold. -/
def Part.range : Part → Int × Int
  | .year => (-2147483648, 2147483647)
  | .month => (1, 12)
  | .day => (1, 31)
  | .hour => (0, 23)
  | .minute => (0, 59)
  | .second => (0, 60)

/-- Stores a part. -/
def Parts.store (parts : Parts) (part : Part) (n : Int) : Parts :=
  match part with
  | .year => { parts with year := n }
  | .month => { parts with month := n.toNat }
  | .day => { parts with day := n.toNat }
  | .hour => { parts with hour := n.toNat }
  | .minute => { parts with minute := n.toNat }
  | .second => { parts with second := n.toNat }

/-! ## Scanning -/

/-- The greatest number that is read, the greatest signed integer of 64 bits. -/
def greatestNumber : Nat := 9223372036854775807

/-- Reads at least one and at most {lit}`width` digits. -/
def scanDigits (width : Nat) (text : List Char) :
    Except PatternError (List Char × List Char) :=
  match text with
  | [] => .error .premature
  | c :: _ =>
    if c.isDigit then
      let digits := (text.take width).takeWhile Char.isDigit
      if Nat.ofDigitChars 10 digits 0 ≤ greatestNumber then .ok (digits, text.drop digits.length)
      else .error .outOfRange
    else
      .error .unexpected

/-- Reads the number of a part.  A year may have a sign and then any number of digits;
without a sign it has at most four, and every other part at most two. -/
def scanPart (part : Part) (text : List Char) : Except PatternError (Int × List Char) := do
  match part, text with
  | .year, '-' :: rest =>
    let (digits, rest') ← scanDigits rest.length rest
    return (-(Nat.ofDigitChars 10 digits 0 : Int), rest')
  | .year, '+' :: rest =>
    let (digits, rest') ← scanDigits rest.length rest
    return (Nat.ofDigitChars 10 digits 0, rest')
  | .year, text =>
    let (digits, rest') ← scanDigits 4 text
    return (Nat.ofDigitChars 10 digits 0, rest')
  | _, text =>
    let (digits, rest') ← scanDigits 2 text
    return (Nat.ofDigitChars 10 digits 0, rest')

/-- Matches one item: the parts with what it found, and the text behind it. -/
def Item.scan (item : Item) (parts : Parts) (text : List Char) :
    Except PatternError (Parts × List Char) :=
  match item with
  | .number part => do
    let (n, rest) ← scanPart part (Text.trimStart text)
    if part.range.1 ≤ n ∧ n ≤ part.range.2 then return (parts.store part n, rest)
    else throw .outOfRange
  | .literal c =>
    match text with
    | [] => .error .premature
    | d :: rest => if d = c then .ok (parts, rest) else .error .unexpected
  | .blanks => .ok (parts, Text.trimStart text)
  | .fraction =>
    match text with
    | '.' :: rest => do
      let (digits, rest') ← scanDigits 9 rest
      let nano := Nat.ofDigitChars 10 digits 0 * Nat.pow 10 (9 - digits.length)
      return ({ parts with nano := nano }, rest'.dropWhile Char.isDigit)
    | _ => .ok (parts, text)

/-- Matches a whole text against a pattern, behind the parts that were read before. -/
def Pattern.scanFrom (parts : Parts) : Pattern → List Char → Except PatternError Parts
  | [], [] => .ok parts
  | [], _ :: _ => .error .trailing
  | item :: items, text => do
    let (parts', rest) ← item.scan parts text
    scanFrom parts' items rest

/-- Matches a whole text against a pattern. -/
def Pattern.scan (pattern : Pattern) (text : List Char) : Except PatternError Parts :=
  Pattern.scanFrom {} pattern text

/-- The date that the parts name, if it exists. -/
def Parts.date (parts : Parts) : Except PatternError Date :=
  match Date.of? parts.year parts.month parts.day with
  | some d => .ok d
  | none => .error .outOfRange

/-- The time that the parts name.  Second sixty is a leap second. -/
def Parts.time (parts : Parts) : Except PatternError Time :=
  let leap := parts.second = 60
  match Time.of? parts.hour parts.minute (if leap then 59 else parts.second)
      (if leap then Time.nanosPerSecond + parts.nano else parts.nano) with
  | some t => .ok t
  | none => .error .outOfRange

/-! ## Written forms -/

/-- Year, month and day. -/
def datePattern : Pattern :=
  [.number .year, .literal '-', .number .month, .literal '-', .number .day]

/-- Hour and minute. -/
def minutePattern : Pattern :=
  [.number .hour, .literal ':', .number .minute]

/-- Hour, minute, second and fraction. -/
def secondPattern : Pattern :=
  minutePattern ++ [.literal ':', .number .second, .fraction]

/-- A date and a time with a blank or the letter T between them, and a date and a time
without seconds, in the order in which they are tried. -/
def momentPatterns : List Pattern :=
  [datePattern ++ .blanks :: secondPattern,
   datePattern ++ .literal 'T' :: secondPattern,
   datePattern ++ .blanks :: minutePattern]

/-- Reads a moment in one form. -/
def Pattern.readMoment (pattern : Pattern) (text : List Char) : Except PatternError DateTime := do
  let parts ← pattern.scan text
  return ⟨← parts.date, ← parts.time⟩

/-- The first form that matches decides; when none does, the last one names the fault. -/
def readFirst (text : List Char) (fault : PatternError) :
    List Pattern → Except PatternError DateTime
  | [] => .error fault
  | pattern :: rest =>
    match pattern.readMoment text with
    | .ok m => .ok m
    | .error e => readFirst text e rest

end RowQuery.Calendar

namespace RowQuery

/-- Reads a date. -/
def Date.read (text : List Char) : Except Calendar.PatternError Date := do
  (← Calendar.datePattern.scan text).date

/-- Reads a moment: a date with a time, or a date alone, which means its midnight. -/
def DateTime.read (text : List Char) : Except Calendar.PatternError DateTime :=
  match Calendar.readFirst text .premature Calendar.momentPatterns with
  | .ok m => .ok m
  | .error e =>
    match Date.read text with
    | .ok d => .ok (atMidnight d)
    | .error _ => .error e

end RowQuery
