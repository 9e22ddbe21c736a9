import Mathlib.Data.List.Nodup
import RowQuery.Proofs.Calendar.WrittenForms
import RowQuery.Proofs.Number.IntegerText
import RowQuery.Proofs.UuidText
import RowQuery.Proofs.Value.Casting
import RowQuery.Schema.Converter

/-!
# Values survive their text

The text of a truth value, an integer, an identifier, a date or a moment is read back as the
value, and a text stands for itself.  Left out are moments with a leap second out of place, whose
text says the second that follows.  A value of an enumeration is written as its name, or as its
code without one, so it survives when the names of the enumeration can be told apart, from each
other and from codes.

Main results:

- Definition {lit}`throughText`: the conversion to text and from there to a type.
- Theorem {lit}`throughText_ty`: a value whose text says all comes back to its own type.
- Theorem {lit}`throughText_moment`: any moment comes back as the moment that its text says.
- Theorem {lit}`throughText_enum`: a value of an enumeration with legible names comes back.
- Theorem {lit}`survivesText`: all of these, with the way between dates and moments and the ways
  through the converters.
-/

namespace RowQuery

open Outcome

/-! ## Names of variants -/

/-- The names of the variants differ by more than the case of letters, have no blanks around
them, and are no integers. -/
structure EnumType.Legible (e : EnumType) : Prop where
  distinct : (e.variants.map fun v => Text.foldAscii v.name).Nodup
  trimmed : ∀ v ∈ e.variants, Text.trimmed v.name = v.name
  unnumbered : ∀ v ∈ e.variants, ∀ n, Number.readInt64 v.name.toList ≠ .ok n

namespace EnumType

/-- The variant with a code is one of the variants. -/
theorem byCode?_eq_some {e : EnumType} {code : Int64} {v : EnumVariant}
    (h : e.byCode? code = some v) : v ∈ e.variants ∧ v.code = code := by
  rw [byCode?] at h
  have hcode := List.find?_some h
  exact ⟨List.mem_of_find?_eq_some h, of_decide_eq_true hcode⟩

/-- A variant is found by its name. -/
theorem Legible.byName?_name {e : EnumType} (h : e.Legible) {v : EnumVariant}
    (hv : v ∈ e.variants) : e.byName? v.name = some v := by
  rw [byName?]
  cases hfound : e.variants.find? fun w => Text.sameName w.name v.name with
  | none => exact absurd (Text.sameName_refl v.name) (List.find?_eq_none.1 hfound v hv)
  | some w =>
    have hw : w ∈ e.variants := List.mem_of_find?_eq_some hfound
    have hname := List.find?_some hfound
    rw [List.inj_on_of_nodup_map h.distinct hw hv (Text.sameName_iff.1 hname)]

/-- No variant has the text of a code as its name. -/
theorem Legible.byName?_integerText {e : EnumType} (h : e.Legible) (code : Int64) :
    e.byName? (Number.integerText code.toInt) = none := by
  refine List.find?_eq_none.2 fun v hv hname => ?_
  have hcode : v.name = Number.integerText code.toInt := Number.eq_of_sameName_integerText hname
  refine h.unnumbered v hv code ?_
  rw [hcode, Number.readInt64_integerText]

end EnumType

namespace Value

/-! ## Through text -/

/-- The conversion to text and from there to a type. -/
def throughText (v : Value) (t : Ty) : Except Fault Value := do
  (← v.cast .text).cast t

/-- What is written as a text goes on from the text. -/
theorem throughText_of_toText {v : Value} {s : String} (h : v.toText = .ok s)
    (hnull : v.isNull = false) (t : Ty) : v.throughText t = (text s).cast t := by
  rw [throughText, cast, hnull, h]
  rfl

/-- The text of an integer is read as the integer. -/
theorem toInteger_integerText (n : Int64) :
    (text (Number.integerText n.toInt)).toInteger = .ok n := by
  rw [toInteger, Number.trim_integerText, Number.readInt64_integerText]
  rfl

/-- The text of an identifier is read as the identifier. -/
theorem toUuid_text (u : Uuid) : (text (String.ofList u.text)).toUuid = .ok u := by
  rw [toUuid, String.toList_ofList, u.trim_text, u.read_text]
  rfl

/-- The text of a date is read as the date. -/
theorem toDate_text (d : Date) : (text (String.ofList d.text)).toDate = .ok d := by
  rw [toDate, String.toList_ofList, d.trim_text, d.read_text]

/-- The text of a moment is read as the moment that it says. -/
theorem readDateTime_text (m : DateTime) :
    readDateTime (String.ofList m.text) = .ok m.carried := by
  rw [readDateTime, String.toList_ofList, m.trim_text, m.read_text]
  rfl

/-- The text of a date is read as its midnight. -/
theorem readDateTime_text_date (d : Date) :
    readDateTime (String.ofList d.text) = .ok (.atMidnight d) := by
  rw [readDateTime, String.toList_ofList, d.trim_text, DateTime.read_text_date]
  rfl

/-- The text of a moment is read as its date, when a date is wanted. -/
theorem toDate_text_dateTime (m : DateTime) :
    (text (String.ofList m.text)).toDate = .ok m.date := by
  rw [toDate, String.toList_ofList, m.trim_text, Date.read_text_dateTime, readDateTime_text]
  rfl

/-! ## Own types -/

/-- The values whose text says all about them, the type apart.  The text of a moment does not say
which second a leap second out of place follows. -/
def textSaysAll : Value → Bool
  | bool _ | int16 _ | int32 _ | int64 _ | text _ | uuid _ | date _ => true
  | dateTime m => m.time.LeapsLast
  | null | double _ | bytes _ | enum _ => false

/-- A moment comes back from its text as the moment that the text says. -/
theorem throughText_moment (m : DateTime) :
    (dateTime m).throughText .dateTime = .ok (dateTime m.carried) := by
  rw [throughText_of_toText rfl rfl, cast, toDateTime, readDateTime_text]
  rfl

/-- A value whose text says all comes back from it. -/
theorem throughText_ty {v : Value} (h : v.textSaysAll = true) : v.throughText v.ty = .ok v := by
  cases v with
  | bool b => cases b <;> rfl
  | int16 n =>
    have hread : (text (Number.integerText n.toInt)).toInteger16 = .ok n := by
      rw [toInteger16_eq_ok, ← Int16.toInt_toInt64, toInteger_integerText]
    rw [throughText_of_toText rfl rfl, ty, cast, hread]
    rfl
  | int32 n =>
    have hread : (text (Number.integerText n.toInt)).toInteger32 = .ok n := by
      rw [toInteger32_eq_ok, ← Int32.toInt_toInt64, toInteger_integerText]
    rw [throughText_of_toText rfl rfl, ty, cast, hread]
    rfl
  | int64 n =>
    rw [throughText_of_toText rfl rfl, ty, cast, toInteger_integerText]
    rfl
  | text s => rfl
  | uuid u =>
    rw [throughText_of_toText rfl rfl, ty, cast, toUuid_text]
    rfl
  | date d =>
    rw [throughText_of_toText rfl rfl, ty, cast, toDate_text]
    rfl
  | dateTime m =>
    have hcarried : m.carried = m := DateTime.carried_eq_self_iff.2 (of_decide_eq_true h)
    rw [ty, throughText_moment, hcarried]
  | null | double _ | bytes _ | enum _ => cases h

/-! ## Dates and moments -/

/-- A date becomes a moment through its text as it does without it. -/
theorem throughText_date (d : Date) : (date d).throughText .dateTime = (date d).cast .dateTime := by
  rw [throughText_of_toText rfl rfl, cast, toDateTime, readDateTime_text_date]
  rfl

/-- A moment becomes a date through its text as it does without it. -/
theorem throughText_dateTime (m : DateTime) :
    (dateTime m).throughText .date = (dateTime m).cast .date := by
  rw [throughText_of_toText rfl rfl, cast, toDate_text_dateTime]
  rfl

/-! ## Enumerations -/

/-- The text of a value of an enumeration is read as the value. -/
theorem readEnum?_enumText {e : EnumType} (h : e.Legible) (code : Int64) :
    readEnum? e (enumText (e.valueOf code)) = some (e.valueOf code) := by
  cases hvariant : e.byCode? code with
  | some v =>
    obtain ⟨hv, rfl⟩ := EnumType.byCode?_eq_some hvariant
    have hvalue : e.valueOf v.code = ⟨v.code, some v.name⟩ := by
      rw [EnumType.valueOf, hvariant]
      rfl
    rw [hvalue, enumText, Option.getD_some, readEnum?, h.trimmed v hv, h.byName?_name hv]
  | none =>
    have hvalue : e.valueOf code = ⟨code, none⟩ := by
      rw [EnumType.valueOf, hvariant]
      rfl
    have htrimmed :
        Text.trimmed (Number.integerText code.toInt) = Number.integerText code.toInt := by
      rw [Text.trimmed, Number.trim_integerText, String.ofList_toList]
    rw [hvalue, enumText, Option.getD_none, readEnum?, htrimmed, h.byName?_integerText,
      Number.readInt64_integerText]
    exact congrArg some hvalue

/-- A value of an enumeration with legible names comes back from its text. -/
theorem throughText_enum {e : EnumType} (h : e.Legible) (code : Int64) :
    (enum (e.valueOf code)).throughText (.enum e) = .ok (enum (e.valueOf code)) := by
  have hread : (text (enumText (e.valueOf code))).toEnum? e = some (e.valueOf code) :=
    readEnum?_enumText h code
  rw [throughText_of_toText rfl rfl, cast, hread]
  rfl

/-! ## Converters -/

/-- An identifier that is presented as its text is stored as it was. -/
theorem write_read_uuidText (u : Uuid) :
    Converter.uuidText.read (uuid u) >>= Converter.uuidText.write = .ok (uuid u) := by
  have hwrite : Converter.uuidText.write (text (String.ofList u.text)) = .ok (uuid u) := by
    rw [Converter.write_uuidText, cast, toUuid_text]
    rfl
  exact bind_eq_ok.2 ⟨text (String.ofList u.text), rfl, hwrite⟩

/-- A code that is presented as a value of an enumeration is stored as it was. -/
theorem write_read_enumeration (e : EnumType) (code : Int64) :
    (Converter.enumeration e).read (int64 code) >>= (Converter.enumeration e).write =
      .ok (int64 code) := rfl

/-- A value of an enumeration is presented as it was stored. -/
theorem read_write_enumeration (e : EnumType) (code : Int64) :
    (Converter.enumeration e).write (enum (e.valueOf code)) >>= (Converter.enumeration e).read =
      .ok (enum (e.valueOf code)) := rfl

/-! ## The whole -/

/-- Values survive the way through their text, dates and moments also on the way to each other, and
values of an enumeration when its names are legible.  A moment comes back as what its text says,
which is the moment itself exactly if it has no leap second out of place.  Converters undo what they
did. -/
theorem survivesText :
    (∀ v : Value, v.textSaysAll = true → v.throughText v.ty = .ok v) ∧
    (∀ m : DateTime, (dateTime m).throughText .dateTime = .ok (dateTime m.carried) ∧
      (m.carried = m ↔ m.time.LeapsLast)) ∧
    (∀ d : Date, (date d).throughText .dateTime = (date d).cast .dateTime) ∧
    (∀ m : DateTime, (dateTime m).throughText .date = (dateTime m).cast .date) ∧
    (∀ (e : EnumType) (code : Int64), e.Legible →
      (enum (e.valueOf code)).throughText (.enum e) = .ok (enum (e.valueOf code))) ∧
    (∀ u : Uuid, Converter.uuidText.read (uuid u) >>= Converter.uuidText.write = .ok (uuid u)) ∧
    (∀ (e : EnumType) (code : Int64),
      (Converter.enumeration e).read (int64 code) >>= (Converter.enumeration e).write =
        .ok (int64 code)) ∧
    ∀ (e : EnumType) (code : Int64),
      (Converter.enumeration e).write (enum (e.valueOf code)) >>= (Converter.enumeration e).read =
        .ok (enum (e.valueOf code)) :=
  ⟨fun _ h => throughText_ty h,
    fun m => ⟨throughText_moment m, DateTime.carried_eq_self_iff⟩,
    throughText_date, throughText_dateTime, fun _ code h => throughText_enum h code,
    write_read_uuidText, write_read_enumeration, read_write_enumeration⟩

/-- A state of an order. -/
def orderState : EnumType :=
  ⟨"OrderState", [⟨"Open", 0⟩, ⟨"Shipped", 10⟩, ⟨"Closed", -1⟩]⟩

/-- The names of the states of an order can be told apart. -/
theorem legible_orderState : orderState.Legible where
  distinct := by decide
  trimmed := by decide
  unnumbered := by
    intro v hv n
    simp only [orderState, List.mem_cons, List.not_mem_nil, or_false] at hv
    rcases hv with rfl | rfl | rfl <;> nofun

/-- The last nanosecond of a leap second, in a year that is written with a sign. -/
def lastOfLeapSecond : DateTime :=
  ⟨⟨-44, 3, 15, by decide⟩, ⟨23, 59, 59, 1999999999, by decide⟩⟩

/-- A leap second survives, and so do a state without a name and one with a negative code. -/
theorem survivesText_orderState :
    (dateTime lastOfLeapSecond).textSaysAll = true ∧
      (dateTime lastOfLeapSecond).throughText .dateTime = .ok (dateTime lastOfLeapSecond) ∧
      orderState.Legible ∧
      (enum ⟨7, none⟩).throughText (.enum orderState) = .ok (enum ⟨7, none⟩) ∧
      (enum ⟨-1, some "Closed"⟩).throughText (.enum orderState) = .ok (enum ⟨-1, some "Closed"⟩) :=
  ⟨rfl, survivesText.1 (dateTime lastOfLeapSecond) rfl, legible_orderState,
    survivesText.2.2.2.2.1 orderState 7 legible_orderState,
    survivesText.2.2.2.2.1 orderState (-1) legible_orderState⟩

/-- A third of a second into a leap second behind second four of a minute. -/
def leapSecondOutOfPlace : DateTime :=
  ⟨⟨2015, 9, 8, by decide⟩, ⟨23, 56, 4, 1333333333, by decide⟩⟩

/-- Its text says second five, so another moment comes back. -/
theorem throughText_leapSecondOutOfPlace :
    (dateTime leapSecondOutOfPlace).cast .text = .ok (text "2015-09-08 23:56:05.333333333") ∧
      (dateTime leapSecondOutOfPlace).throughText .dateTime =
        .ok (dateTime ⟨⟨2015, 9, 8, by decide⟩, ⟨23, 56, 5, 333333333, by decide⟩⟩) ∧
      (dateTime leapSecondOutOfPlace).throughText .dateTime ≠
        .ok (dateTime leapSecondOutOfPlace) := by
  refine ⟨rfl, throughText_moment leapSecondOutOfPlace, ?_⟩
  rw [throughText_moment]
  decide

end Value

end RowQuery
