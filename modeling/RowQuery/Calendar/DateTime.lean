import RowQuery.Calendar.Date

/-!
# Date and time without a time zone

A time of day has a resolution of one nanosecond.  A leap second is held as the second before it
with a thousand million nanoseconds or more.  It belongs behind second fifty-nine, where it is the
sixtieth second of the minute, but a time may be in a leap second behind any other second, too.

Main results:

- {lit}`Time.of?` builds a time exactly when it exists and has no leap second out of place.
- {lit}`DateTime.text` writes the fraction of a second with the fewest of three, six or nine
  digits that lose nothing.
-/

namespace RowQuery

/-! ## Time of day -/

/-- The nanoseconds of one second. -/
def Time.nanosPerSecond : Nat := 1000000000

/-- The time exists; the nanoseconds may be those of a leap second. -/
def Time.Exists (hour minute second nano : Nat) : Prop :=
  hour < 24 ∧ minute < 60 ∧ second < 60 ∧ nano < 2 * Time.nanosPerSecond

instance (hour minute second nano : Nat) : Decidable (Time.Exists hour minute second nano) :=
  inferInstanceAs (Decidable (_ ∧ _ ∧ _ ∧ _))

/-- A time of day. -/
structure Time where
  hour : Nat
  minute : Nat
  second : Nat
  nano : Nat
  existing : Time.Exists hour minute second nano
  deriving DecidableEq

namespace Time

/-- If the time is in a leap second, then in the one behind second fifty-nine. -/
def LeapsLast (t : Time) : Prop := t.nano < nanosPerSecond ∨ t.second = 59

instance (t : Time) : Decidable t.LeapsLast :=
  inferInstanceAs (Decidable (_ ∨ _))

/-- The time with these parts, if it exists and has no leap second out of place. -/
def of? (hour minute second nano : Nat) : Option Time :=
  if h : Time.Exists hour minute second nano then
    let t : Time := ⟨hour, minute, second, nano, h⟩
    if t.LeapsLast then some t else none
  else none

/-- A time without a leap second out of place is the time with its parts. -/
theorem of?_self {t : Time} (h : t.LeapsLast) :
    of? t.hour t.minute t.second t.nano = some t := by
  rw [of?, dif_pos t.existing]
  exact if_pos h

/-- The start of a day. -/
def midnight : Time := ⟨0, 0, 0, 0, by decide⟩

/-- Times are ordered within a day. -/
def order (a b : Time) : Ordering :=
  (compare a.hour b.hour).then ((compare a.minute b.minute).then
    ((compare a.second b.second).then (compare a.nano b.nano)))

/-- The fraction of a second: nothing, or a point and three, six or nine digits. -/
def fractionText (nano : Nat) : List Char :=
  if nano = 0 then []
  else if nano % 1000000 = 0 then '.' :: Date.padded 3 (nano / 1000000)
  else if nano % 1000 = 0 then '.' :: Date.padded 6 (nano / 1000)
  else '.' :: Date.padded 9 nano

/-- The time as hour, minute, second and fraction.  A leap second counts as the next second, so
behind second fifty-nine it is second sixty. -/
def text (t : Time) : List Char :=
  Date.padded 2 t.hour ++ ':' :: Date.padded 2 t.minute ++
    ':' :: Date.padded 2 (t.second + t.nano / nanosPerSecond) ++
    fractionText (t.nano % nanosPerSecond)

end Time

/-! ## Date and time -/

/-- A time of a day of the calendar. -/
structure DateTime where
  date : Date
  time : Time
  deriving DecidableEq

namespace DateTime

/-- The start of a day. -/
def atMidnight (d : Date) : DateTime := ⟨d, Time.midnight⟩

instance : Inhabited DateTime := ⟨atMidnight Date.epoch⟩

/-- Moments are ordered by date and then by time. -/
def order (a b : DateTime) : Ordering :=
  (a.date.order b.date).then (a.time.order b.time)

/-- The date and the time with a blank between them. -/
def text (m : DateTime) : List Char :=
  m.date.text ++ ' ' :: m.time.text

end DateTime

end RowQuery
