import RowQuery.Number.Integer

/-!
# Dates of the Gregorian calendar

A date is a day of the Gregorian calendar, extended to all years of the supported span.  It
is ordered by time and written as year, month and day.

Main results:

- {lit}`Date.of?` builds a date exactly when the day exists; {lit}`Date.of?_self` says that
  every date is built from its parts.
- {lit}`Date.text` writes a year of the four-digit span with four digits, and any other with
  a sign.
-/

namespace RowQuery

/-! ## Days that exist -/

/-- The first year of the supported span. -/
def Date.firstYear : Int := -262143

/-- The last year of the supported span. -/
def Date.lastYear : Int := 262142

/-- A leap year is divisible by four, and by four hundred if by a hundred. -/
def Date.isLeapYear (year : Int) : Bool :=
  year % 4 = 0 && (year % 100 ≠ 0 || year % 400 = 0)

/-- The number of days of a month. -/
def Date.daysInMonth (year : Int) (month : Nat) : Nat :=
  if month = 2 then (if isLeapYear year then 29 else 28)
  else if month = 4 ∨ month = 6 ∨ month = 9 ∨ month = 11 then 30
  else 31

/-- The day exists and its year is supported. -/
def Date.Exists (year : Int) (month day : Nat) : Prop :=
  (Date.firstYear ≤ year ∧ year ≤ Date.lastYear) ∧ (1 ≤ month ∧ month ≤ 12) ∧
    (1 ≤ day ∧ day ≤ Date.daysInMonth year month)

instance (year : Int) (month day : Nat) : Decidable (Date.Exists year month day) :=
  inferInstanceAs (Decidable (_ ∧ _ ∧ _))

/-- A day of the calendar. -/
structure Date where
  year : Int
  month : Nat
  day : Nat
  existing : Date.Exists year month day
  deriving DecidableEq

namespace Date

/-- The day with these parts, if it exists. -/
def of? (year : Int) (month day : Nat) : Option Date :=
  if h : Date.Exists year month day then some ⟨year, month, day, h⟩ else none

/-- Every date is the day with its parts. -/
@[simp] theorem of?_self (d : Date) : of? d.year d.month d.day = some d := by
  simp [of?, d.existing]

/-- The first of January 1970, where days are counted from. -/
def epoch : Date := ⟨1970, 1, 1, by decide⟩

instance : Inhabited Date := ⟨epoch⟩

/-- Dates are ordered by time. -/
def order (a b : Date) : Ordering :=
  (compare a.year b.year).then ((compare a.month b.month).then (compare a.day b.day))

/-! ## Text -/

/-- The digits of a number, with zeros in front up to a width. -/
def padded (width n : Nat) : List Char :=
  let digits := Nat.toDigits 10 n
  List.replicate (width - digits.length) '0' ++ digits

/-- A year: four digits, or a sign and at least four digits outside of 0 to 9999. -/
def yearText (year : Int) : List Char :=
  if 0 ≤ year ∧ year < 10000 then padded 4 year.toNat
  else (if year < 0 then '-' else '+') :: padded 4 year.natAbs

/-- The date as year, month and day. -/
def text (d : Date) : List Char :=
  yearText d.year ++ '-' :: padded 2 d.month ++ '-' :: padded 2 d.day

end Date

end RowQuery
