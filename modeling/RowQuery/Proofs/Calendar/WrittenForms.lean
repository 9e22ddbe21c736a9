import Mathlib.Data.List.TakeWhile
import RowQuery.Calendar.Pattern
import RowQuery.Proofs.Text.Trimming

/-!
# Dates and moments are read back from their text

The written form of a date or a moment is a row of pieces, and the pattern that reads it a row of
items.  Each item takes exactly the piece that was written for it and leaves the rest, so the
parts come back one by one.  A year outside of four digits has a sign and ends at the hyphen
behind it; a leap second is written as second sixty, or as the second that follows if it stands
behind another second than fifty-nine.

Main results:

- Theorem {lit}`scanFrom_of_scan`: a pattern is matched item by item.
- Theorems {lit}`scanFrom_date` and {lit}`scanFrom_time`: the pieces of a date and of a time are
  matched whatever follows.
- Definition {lit}`DateTime.carried`: the moment that a text says, which is the moment itself
  exactly if it has no leap second out of place.
- Theorems {lit}`Date.read_text` and {lit}`DateTime.read_text`: dates and moments are read back.
- Theorems {lit}`Date.read_text_dateTime` and {lit}`DateTime.read_text_date`: the text of a moment
  is no date, and the text of a date is the moment of its midnight.
- Theorems {lit}`Date.trim_text` and {lit}`DateTime.trim_text`: trimming leaves both texts alone.
-/

namespace RowQuery

/-! ## Padded numbers -/

namespace Date

/-- A padded number is made of digits. -/
theorem isDigit_of_mem_padded {width n : Nat} {c : Char} (h : c ∈ padded width n) :
    c.isDigit = true := by
  rw [padded] at h
  rcases List.mem_append.1 h with h | h
  · rw [List.eq_of_mem_replicate h]
    rfl
  · exact Nat.isDigit_of_mem_toDigits (by decide) (by decide) h

/-- A padded number has digits. -/
theorem padded_ne_nil (width n : Nat) : padded width n ≠ [] :=
  List.append_ne_nil_of_right_ne_nil _ Nat.toDigits_ne_nil

/-- The zeros in front of a number do not count. -/
theorem ofDigitChars_padded (width n : Nat) : Nat.ofDigitChars 10 (padded width n) 0 = n := by
  rw [padded, Nat.ofDigitChars_append, Nat.ofDigitChars_replicate_zero, Nat.mul_zero,
    Nat.ofDigitChars_ten_toDigits]

/-- A number that fits is padded to the width. -/
theorem length_padded {width n : Nat} (hwidth : 0 < width) (h : n < Nat.pow 10 width) :
    (padded width n).length = width := by
  have hle := (Nat.length_toDigits_le_iff (by decide) hwidth).2 h
  rw [padded, List.length_append, List.length_replicate]
  omega

end Date

/-! ## Leap seconds -/

namespace Time

/-- A leap second out of place leaves room for one more second. -/
theorem exists_carried {t : Time} (h : ¬ t.LeapsLast) :
    Time.Exists t.hour t.minute (t.second + 1) (t.nano - nanosPerSecond) := by
  obtain ⟨hhour, hminute, hsecond, hnano⟩ := t.existing
  rw [LeapsLast, not_or] at h
  exact ⟨hhour, hminute, by omega, by omega⟩

/-- The time that the text of a time says: a leap second out of place is written as the second that
follows. -/
def carried (t : Time) : Time :=
  if h : t.LeapsLast then t
  else ⟨t.hour, t.minute, t.second + 1, t.nano - nanosPerSecond, exists_carried h⟩

/-- A time without a leap second out of place is what its text says. -/
theorem carried_of_leapsLast {t : Time} (h : t.LeapsLast) : t.carried = t := dif_pos h

/-- A text says no leap second out of place. -/
theorem leapsLast_carried (t : Time) : t.carried.LeapsLast := by
  by_cases h : t.LeapsLast
  · rwa [carried_of_leapsLast h]
  · rw [carried, dif_neg h]
    have hnano : t.nano - nanosPerSecond < nanosPerSecond := by
      have hlimit := t.existing.2.2.2
      rw [nanosPerSecond] at hlimit ⊢
      omega
    exact .inl hnano

/-- A time is what its text says exactly if it has no leap second out of place. -/
theorem carried_eq_self_iff {t : Time} : t.carried = t ↔ t.LeapsLast :=
  ⟨fun h => h ▸ t.leapsLast_carried, carried_of_leapsLast⟩

/-- A time and what its text says have the same text. -/
theorem text_carried (t : Time) : t.carried.text = t.text := by
  by_cases h : t.LeapsLast
  · rw [carried_of_leapsLast h]
  · have hnano : nanosPerSecond ≤ t.nano := not_lt.1 fun hlt => h (.inl hlt)
    have hsecond : t.second + 1 + (t.nano - nanosPerSecond) / nanosPerSecond =
        t.second + t.nano / nanosPerSecond := by
      rw [nanosPerSecond] at hnano ⊢
      omega
    rw [carried, dif_neg h]
    simp only [text, hsecond, ← Nat.mod_eq_sub_mod hnano]

end Time

namespace DateTime

/-- The moment that the text of a moment says. -/
def carried (m : DateTime) : DateTime := ⟨m.date, m.time.carried⟩

/-- A moment is what its text says exactly if it has no leap second out of place. -/
theorem carried_eq_self_iff {m : DateTime} : m.carried = m ↔ m.time.LeapsLast := by
  rw [← Time.carried_eq_self_iff]
  exact ⟨congrArg time, fun h => by rw [carried, h]⟩

/-- A moment and what its text says have the same text. -/
theorem text_carried (m : DateTime) : m.carried.text = m.text := by
  rw [text, carried, Time.text_carried, text]

end DateTime

namespace Calendar

open Date

/-! ## Items -/

/-- Digits are scanned to their end, when they take up the whole width or something else follows. -/
theorem scanDigits_append {width : Nat} {digits rest : List Char} (hne : digits ≠ [])
    (hdigits : ∀ c ∈ digits, c.isDigit = true)
    (hvalue : Nat.ofDigitChars 10 digits 0 ≤ greatestNumber)
    (hend : digits.length = width ∨
      digits.length ≤ width ∧ ∀ c ∈ rest.head?, c.isDigit = false) :
    scanDigits width (digits ++ rest) = .ok (digits, rest) := by
  have htake : ((digits ++ rest).take width).takeWhile Char.isDigit = digits := by
    rcases hend with hlength | ⟨hlength, hrest⟩
    · rw [List.take_left' hlength, List.takeWhile_eq_self_iff.2 hdigits]
    · rw [List.take_append, List.take_of_length_le hlength, List.takeWhile_append_of_pos hdigits]
      cases rest with
      | nil => simp
      | cons c others =>
        have hc := hrest c rfl
        cases width - digits.length <;> simp [hc]
  cases digits with
  | nil => exact absurd rfl hne
  | cons c others =>
    rw [List.cons_append, scanDigits, if_pos (hdigits c List.mem_cons_self), ← List.cons_append]
    dsimp only
    rw [htake, if_pos hvalue, List.drop_left]

/-- Two digits are the number of a part other than the year. -/
theorem scanPart_padded {part : Part} (hpart : part ≠ .year) {n : Nat} (hn : n < 100)
    (rest : List Char) : scanPart part (padded 2 n ++ rest) = .ok ((n : Int), rest) := by
  have hscan : scanDigits 2 (padded 2 n ++ rest) = .ok (padded 2 n, rest) := by
    refine scanDigits_append (padded_ne_nil 2 n) (fun c => isDigit_of_mem_padded) ?_
      (.inl (length_padded (by decide) hn))
    rw [ofDigitChars_padded, greatestNumber]
    omega
  cases part with
  | year => exact absurd rfl hpart
  | _ =>
    rw [scanPart, hscan]
    · show Except.ok ((Nat.ofDigitChars 10 (padded 2 n) 0 : Int), rest) = _
      rw [ofDigitChars_padded]
    all_goals nofun

/-- The first character of a padded number is a digit, whatever follows. -/
theorem isDigit_head?_padded {width n : Nat} {rest : List Char} :
    ∀ c ∈ (padded width n ++ rest).head?, c.isDigit = true := by
  intro c hc
  rw [List.head?_append, Option.mem_def, Option.or_eq_some_iff] at hc
  rcases hc with hc | ⟨hnone, _⟩
  · exact isDigit_of_mem_padded (List.mem_of_mem_head? hc)
  · exact absurd (List.head?_eq_none_iff.1 hnone) (padded_ne_nil width n)

/-- A year that starts with a digit has at most four of them. -/
theorem scanPart_year_of_isDigit {text : List Char} (h : ∀ c ∈ text.head?, c.isDigit = true) :
    scanPart .year text =
      (scanDigits 4 text).map fun found => ((Nat.ofDigitChars 10 found.1 0 : Int), found.2) := by
  have hsign : ∀ sign rest, sign.isDigit = false → text ≠ sign :: rest := by
    rintro sign rest hsign rfl
    rw [h sign rfl] at hsign
    cases hsign
  rw [scanPart]
  · cases scanDigits 4 text <;> rfl
  · exact fun rest => hsign '-' rest rfl
  · exact fun rest => hsign '+' rest rfl

/-- The text of a year is read as the year, when a hyphen follows. -/
theorem scanPart_yearText (year : Int) (rest : List Char)
    (hyear : year.natAbs ≤ greatestNumber) :
    scanPart .year (yearText year ++ '-' :: rest) = .ok (year, '-' :: rest) := by
  have hdigits : ∀ c ∈ padded 4 year.natAbs, c.isDigit = true := fun c => isDigit_of_mem_padded
  have hvalue : Nat.ofDigitChars 10 (padded 4 year.natAbs) 0 = year.natAbs :=
    ofDigitChars_padded _ _
  rw [yearText]
  split
  · rename_i hplain
    have hnat : year.toNat = year.natAbs := by omega
    have hfour : year.natAbs < 10000 := by omega
    have hscan : scanDigits 4 (padded 4 year.natAbs ++ '-' :: rest) =
        .ok (padded 4 year.natAbs, '-' :: rest) :=
      scanDigits_append (padded_ne_nil 4 _) hdigits (hvalue.trans_le hyear)
        (.inl (length_padded (by decide) hfour))
    rw [hnat, scanPart_year_of_isDigit isDigit_head?_padded, hscan, Except.map, hvalue,
      Int.natAbs_of_nonneg hplain.1]
  · have hscan : scanDigits (padded 4 year.natAbs ++ '-' :: rest).length
        (padded 4 year.natAbs ++ '-' :: rest) = .ok (padded 4 year.natAbs, '-' :: rest) :=
      scanDigits_append (padded_ne_nil 4 _) hdigits (hvalue.trans_le hyear)
        (.inr ⟨by simp, by simp⟩)
    split
    · rename_i hnegative
      have habs : -(year.natAbs : Int) = year := by omega
      rw [List.cons_append, scanPart, hscan]
      show Except.ok (-(Nat.ofDigitChars 10 (padded 4 year.natAbs) 0 : Int), '-' :: rest) = _
      rw [hvalue, habs]
    · have habs : (year.natAbs : Int) = year := by omega
      rw [List.cons_append, scanPart, hscan]
      show Except.ok ((Nat.ofDigitChars 10 (padded 4 year.natAbs) 0 : Int), '-' :: rest) = _
      rw [hvalue, habs]

/-! ## Patterns -/

/-- A pattern goes on behind what its first item has matched. -/
theorem scanFrom_of_scan {item : Item} {parts parts' : Parts} {text rest : List Char}
    (h : item.scan parts text = .ok (parts', rest)) (items : Pattern) :
    Pattern.scanFrom parts (item :: items) text = Pattern.scanFrom parts' items rest := by
  rw [Pattern.scanFrom, h]
  rfl

/-- A number of the range of its part is stored. -/
theorem scan_number {part : Part} {n : Int} {text rest : List Char}
    (hread : scanPart part text = .ok (n, rest)) (hfirst : ∀ c ∈ text.head?, Text.isBlank c = false)
    (hrange : part.range.1 ≤ n ∧ n ≤ part.range.2) (parts : Parts) :
    (Item.number part).scan parts text = .ok (parts.store part n, rest) := by
  rw [Item.scan, Text.trimStart_eq_self hfirst, hread]
  exact if_pos hrange

/-- The first character of a padded number is no blank, whatever follows. -/
theorem isBlank_head?_padded {width n : Nat} {rest : List Char} :
    ∀ c ∈ (padded width n ++ rest).head?, Text.isBlank c = false := fun c hc =>
  Text.isBlank_of_isDigit (isDigit_head?_padded c hc)

/-- The first character of a year is no blank, whatever follows. -/
theorem isBlank_head?_yearText {year : Int} {rest : List Char} :
    ∀ c ∈ (yearText year ++ rest).head?, Text.isBlank c = false := by
  rw [yearText]
  split
  · exact isBlank_head?_padded
  · split
    all_goals
      rintro c ⟨⟩
      decide

/-- Two digits are stored as the number of a part other than the year. -/
theorem scanFrom_padded (part : Part) (hpart : part ≠ .year) {n : Nat}
    (hrange : part.range.1 ≤ n ∧ n ≤ part.range.2) (parts : Parts) (items : Pattern)
    (rest : List Char) :
    Pattern.scanFrom parts (.number part :: items) (padded 2 n ++ rest) =
      Pattern.scanFrom (parts.store part n) items rest := by
  have hn : n < 100 := by
    cases part with
    | year => exact absurd rfl hpart
    | _ =>
      simp only [Part.range] at hrange
      omega
  exact scanFrom_of_scan
    (scan_number (scanPart_padded hpart hn rest) isBlank_head?_padded hrange _) _

/-- A character that has to stand there is passed over. -/
theorem scanFrom_literal (c : Char) (parts : Parts) (items : Pattern) (rest : List Char) :
    Pattern.scanFrom parts (.literal c :: items) (c :: rest) =
      Pattern.scanFrom parts items rest := by
  refine scanFrom_of_scan ?_ items
  rw [Item.scan, if_pos rfl]

/-- One blank is passed over, when no other follows. -/
theorem scanFrom_blank {rest : List Char} (hfirst : ∀ c ∈ rest.head?, Text.isBlank c = false)
    (parts : Parts) (items : Pattern) :
    Pattern.scanFrom parts (.blanks :: items) (' ' :: rest) =
      Pattern.scanFrom parts items rest := by
  have htrim : Text.trimStart (' ' :: rest) = rest := Text.trimStart_eq_self hfirst
  refine scanFrom_of_scan ?_ items
  rw [Item.scan, htrim]

/-- The digits behind a point are read as nanoseconds, as if zeros followed. -/
theorem scan_point (parts : Parts) {width n nano : Nat} (hpos : 0 < width) (hwidth : width ≤ 9)
    (hn : n < Nat.pow 10 width) (hnano : n * Nat.pow 10 (9 - width) = nano) :
    Item.fraction.scan parts ('.' :: padded width n) = .ok ({ parts with nano }, []) := by
  have hlength := length_padded hpos hn
  have hgreatest : n ≤ greatestNumber := by
    calc
      n ≤ Nat.pow 10 width := Nat.le_of_lt hn
      _ ≤ Nat.pow 10 9 := Nat.pow_le_pow_right (by decide) hwidth
      _ ≤ greatestNumber := by decide
  have hscan : scanDigits 9 (padded width n ++ []) = .ok (padded width n, []) := by
    refine scanDigits_append (padded_ne_nil width n) (fun c => isDigit_of_mem_padded) ?_
      (.inr ⟨hlength.trans_le hwidth, nofun⟩)
    rwa [ofDigitChars_padded]
  have hread : Nat.ofDigitChars 10 (padded width n) 0 * Nat.pow 10 (9 - (padded width n).length) =
      nano := by
    rw [ofDigitChars_padded, hlength, hnano]
  rw [List.append_nil] at hscan
  rw [Item.scan, hscan]
  exact congrArg (fun nano => Except.ok ({ parts with nano }, [])) hread

/-- A fraction of a second is read as its nanoseconds. -/
theorem scan_fractionText {parts : Parts} (hparts : parts.nano = 0) {nano : Nat}
    (hnano : nano < Time.nanosPerSecond) :
    Item.fraction.scan parts (Time.fractionText nano) = .ok ({ parts with nano }, []) := by
  rw [Time.nanosPerSecond] at hnano
  rw [Time.fractionText]
  split
  · rename_i hzero
    rw [hzero, ← hparts]
    rfl
  · split
    · have hthree : nano / 1000000 < 1000 := by omega
      have hvalue : nano / 1000000 * 1000000 = nano := by omega
      exact scan_point parts (by decide) (by decide) hthree hvalue
    · split
      · have hsix : nano / 1000 < 1000000 := by omega
        have hvalue : nano / 1000 * 1000 = nano := by omega
        exact scan_point parts (by decide) (by decide) hsix hvalue
      · exact scan_point parts (by decide) (by decide) hnano (Nat.mul_one nano)

/-- The text of a date is matched by the pattern of dates, whatever follows. -/
theorem scanFrom_date (d : Date) (parts : Parts) (items : Pattern) (rest : List Char) :
    Pattern.scanFrom parts (datePattern ++ items) (d.text ++ rest) =
      Pattern.scanFrom { parts with year := d.year, month := d.month, day := d.day } items
        rest := by
  obtain ⟨⟨hfirst, hlast⟩, ⟨hmonth, hmonth'⟩, hday, hday'⟩ := d.existing
  have hlength : daysInMonth d.year d.month ≤ 31 := by
    rw [daysInMonth]
    split_ifs <;> decide
  rw [firstYear] at hfirst
  rw [lastYear] at hlast
  have hyear : d.year.natAbs ≤ greatestNumber := by
    rw [greatestNumber]
    omega
  have hyear' : Part.year.range.1 ≤ d.year ∧ d.year ≤ Part.year.range.2 := by
    simp only [Part.range]
    omega
  have hmonths : Part.month.range.1 ≤ d.month ∧ (d.month : Int) ≤ Part.month.range.2 := by
    simp only [Part.range]
    omega
  have hdays : Part.day.range.1 ≤ d.day ∧ (d.day : Int) ≤ Part.day.range.2 := by
    simp only [Part.range]
    omega
  simp only [text, datePattern, List.append_assoc, List.cons_append, List.nil_append]
  rw [scanFrom_of_scan
      (scan_number (scanPart_yearText d.year _ hyear) isBlank_head?_yearText hyear' _),
    scanFrom_literal, scanFrom_padded .month nofun hmonths,
    scanFrom_literal, scanFrom_padded .day nofun hdays]
  rfl

/-- The text of a time is matched by the pattern of times. -/
theorem scanFrom_time (t : Time) {parts : Parts} (hparts : parts.nano = 0) :
    Pattern.scanFrom parts secondPattern t.text =
      .ok { parts with
        hour := t.hour
        minute := t.minute
        second := t.second + t.nano / Time.nanosPerSecond
        nano := t.nano % Time.nanosPerSecond } := by
  obtain ⟨hhour, hminute, hsecond, hnano⟩ := t.existing
  have hhours : Part.hour.range.1 ≤ t.hour ∧ (t.hour : Int) ≤ Part.hour.range.2 := by
    simp only [Part.range]
    omega
  have hminutes : Part.minute.range.1 ≤ t.minute ∧ (t.minute : Int) ≤ Part.minute.range.2 := by
    simp only [Part.range]
    omega
  have hseconds : Part.second.range.1 ≤ (t.second + t.nano / Time.nanosPerSecond : Nat) ∧
      ((t.second + t.nano / Time.nanosPerSecond : Nat) : Int) ≤ Part.second.range.2 := by
    rw [Time.nanosPerSecond] at hnano ⊢
    simp only [Part.range]
    omega
  have hfraction : t.nano % Time.nanosPerSecond < Time.nanosPerSecond := Nat.mod_lt _ (by decide)
  simp only [Time.text, secondPattern, minutePattern, List.append_assoc, List.cons_append,
    List.nil_append]
  rw [scanFrom_padded .hour nofun hhours, scanFrom_literal,
    scanFrom_padded .minute nofun hminutes, scanFrom_literal,
    scanFrom_padded .second nofun hseconds]
  refine scanFrom_of_scan (scan_fractionText ?_ hfraction) []
  exact hparts

/-- The text of a time starts with a digit. -/
theorem isDigit_head?_text {t : Time} : ∀ c ∈ t.text.head?, c.isDigit = true := by
  rw [Time.text, List.append_assoc, List.append_assoc]
  exact isDigit_head?_padded

/-- The text of a moment is matched by its first written form. -/
theorem scan_moment (m : DateTime) :
    (datePattern ++ .blanks :: secondPattern).scan m.text = .ok
      { year := m.date.year
        month := m.date.month
        day := m.date.day
        hour := m.time.hour
        minute := m.time.minute
        second := m.time.second + m.time.nano / Time.nanosPerSecond
        nano := m.time.nano % Time.nanosPerSecond } := by
  have hfirst : ∀ c ∈ m.time.text.head?, Text.isBlank c = false := fun c hc =>
    Text.isBlank_of_isDigit (isDigit_head?_text c hc)
  rw [Pattern.scan, DateTime.text, scanFrom_date, scanFrom_blank hfirst]
  exact scanFrom_time m.time rfl

/-- Behind the text of a date a pattern has nothing left to match. -/
theorem scan_date (d : Date) (items : Pattern) :
    (datePattern ++ items).scan d.text =
      Pattern.scanFrom { year := d.year, month := d.month, day := d.day } items [] := by
  have h := scanFrom_date d {} items []
  rwa [List.append_nil] at h

/-! ## Parts -/

/-- The parts of a date name it. -/
theorem Parts.date_eq_ok {parts : Parts} {d : Date} (hyear : parts.year = d.year)
    (hmonth : parts.month = d.month) (hday : parts.day = d.day) : parts.date = .ok d := by
  rw [Parts.date, hyear, hmonth, hday, Date.of?_self]

/-- The written parts of a time without a leap second out of place name it, those of a leap second
too. -/
theorem Parts.time_eq_ok {parts : Parts} {t : Time} (hleap : t.LeapsLast)
    (hhour : parts.hour = t.hour) (hminute : parts.minute = t.minute)
    (hsecond : parts.second = t.second + t.nano / Time.nanosPerSecond)
    (hnano : parts.nano = t.nano % Time.nanosPerSecond) : parts.time = .ok t := by
  obtain ⟨-, -, hbound, hlimit⟩ := t.existing
  have hparts : (if parts.second = 60 then 59 else parts.second) = t.second ∧
      (if parts.second = 60 then Time.nanosPerSecond + parts.nano else parts.nano) = t.nano := by
    rw [hsecond, hnano]
    rw [Time.LeapsLast, Time.nanosPerSecond] at hleap
    rw [Time.nanosPerSecond] at hlimit ⊢
    split <;> omega
  rw [Parts.time, hparts.1, hparts.2, hhour, hminute, Time.of?_self hleap]

/-- A moment is read when its text is matched and the parts name a date and a time. -/
theorem readMoment_eq_ok {pattern : Pattern} {text : List Char} {parts : Parts} {m : DateTime}
    (hscan : pattern.scan text = .ok parts) (hdate : parts.date = .ok m.date)
    (htime : parts.time = .ok m.time) : pattern.readMoment text = .ok m := by
  rw [Pattern.readMoment, hscan]
  simp only [bind, Except.bind, hdate, htime]
  rfl

end Calendar

/-! ## Reading -/

open Calendar

/-- The text of a date is read as the date. -/
theorem Date.read_text (d : Date) : Date.read d.text = .ok d := by
  have hscan : datePattern.scan d.text = _ := scan_date d []
  rw [Date.read, hscan]
  exact Parts.date_eq_ok rfl rfl rfl

/-- The text of a moment is read as the moment that it says. -/
theorem DateTime.read_text (m : DateTime) : DateTime.read m.text = .ok m.carried := by
  have hread : (datePattern ++ .blanks :: secondPattern).readMoment m.carried.text =
      .ok m.carried :=
    readMoment_eq_ok (scan_moment m.carried) (Parts.date_eq_ok rfl rfl rfl)
      (Parts.time_eq_ok m.time.leapsLast_carried rfl rfl rfl rfl)
  rw [← m.text_carried, DateTime.read, momentPatterns, readFirst, hread]

/-- The text of a moment is no date. -/
theorem Date.read_text_dateTime (m : DateTime) : Date.read m.text = .error .trailing := by
  have hscan : datePattern.scan m.text = .error .trailing :=
    scanFrom_date m.date {} [] (' ' :: m.time.text)
  rw [Date.read, hscan]
  rfl

/-- The text of a date is read as the moment of its midnight. -/
theorem DateTime.read_text_date (d : Date) : DateTime.read d.text = .ok (.atMidnight d) := by
  have hfault : readFirst d.text .premature momentPatterns = .error .premature := by
    simp only [momentPatterns, readFirst, Pattern.readMoment, scan_date]
    rfl
  rw [DateTime.read, hfault]
  simp only [Date.read_text]

/-! ## Blanks -/

/-- The last character of a padded number is a digit, whatever stands before. -/
theorem Date.isDigit_getLast?_padded {before : List Char} {width n : Nat} :
    ∀ c ∈ (before ++ padded width n).getLast?, c.isDigit = true := by
  intro c hc
  rw [List.getLast?_append, Option.mem_def, Option.or_eq_some_iff] at hc
  rcases hc with hc | ⟨hnone, _⟩
  · exact isDigit_of_mem_padded (List.mem_of_mem_getLast? hc)
  · exact absurd (List.getLast?_eq_none_iff.1 hnone) (padded_ne_nil width n)

/-- The text of a time ends with a digit. -/
theorem Time.isDigit_getLast?_text {t : Time} {before : List Char} :
    ∀ c ∈ (before ++ t.text).getLast?, c.isDigit = true := by
  rw [Time.text, Time.fractionText]
  split
  · rw [List.append_nil, List.append_cons, ← List.append_assoc]
    exact Date.isDigit_getLast?_padded
  · split_ifs
    all_goals
      rw [List.append_cons, ← List.append_assoc]
      exact Date.isDigit_getLast?_padded

/-- The text of a date has no blanks around it. -/
theorem Date.trim_text (d : Date) : Text.trim d.text = d.text := by
  refine Text.trim_eq_self ?_ fun c hc => Text.isBlank_of_isDigit ?_
  · rw [Date.text, List.append_assoc]
    exact isBlank_head?_yearText
  · rw [Date.text, List.append_cons] at hc
    exact Date.isDigit_getLast?_padded c hc

/-- The text of a moment has no blanks around it. -/
theorem DateTime.trim_text (m : DateTime) : Text.trim m.text = m.text := by
  refine Text.trim_eq_self ?_ fun c hc => Text.isBlank_of_isDigit ?_
  · rw [DateTime.text, Date.text, List.append_assoc, List.append_assoc]
    exact isBlank_head?_yearText
  · rw [DateTime.text, List.append_cons] at hc
    exact Time.isDigit_getLast?_text c hc

end RowQuery
