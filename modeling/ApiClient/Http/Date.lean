import ApiClient.Text.Bytes

/-!
# ApiClient.Http.Date

Dates of header values, such as `Thu, 01 Jan 1970 00:00:00 GMT`.

Design points:

* A moment is a whole number of seconds since the start of 1970; the calendar is the Gregorian one,
  extended to all years.
* The day of the year is counted from the first of March, so that the leap day is the last of its
  year and the months have a regular pattern.
-/

namespace ApiClient.Date

/-- A day of the calendar. -/
structure Day where
  /-- The year. -/
  year : Int
  /-- The month, from 1 on. -/
  month : Nat
  /-- The day of the month, from 1 on. -/
  day : Nat
deriving Repr, DecidableEq

/-- The calendar day that lies `days` after the first of January 1970. -/
def ofDays (days : Int) : Day :=
  let shifted := days + 719468
  let era := shifted.fdiv 146097
  let dayOfEra := (shifted.fmod 146097).toNat
  let yearOfEra := (dayOfEra - dayOfEra / 1460 + dayOfEra / 36524 - dayOfEra / 146096) / 365
  let dayOfYear := dayOfEra - (365 * yearOfEra + yearOfEra / 4 - yearOfEra / 100)
  let shiftedMonth := (5 * dayOfYear + 2) / 153
  let day := dayOfYear - (153 * shiftedMonth + 2) / 5 + 1
  let month := if shiftedMonth < 10 then shiftedMonth + 3 else shiftedMonth - 9
  let year := era * 400 + yearOfEra + (if month ≤ 2 then 1 else 0)
  ⟨year, month, day⟩

/-- The names of the days of the week, from the day on which 1970 began. -/
def weekdays : List String := ["Thu", "Fri", "Sat", "Sun", "Mon", "Tue", "Wed"]

/-- The names of the months. -/
def months : List String :=
  ["Jan", "Feb", "Mar", "Apr", "May", "Jun", "Jul", "Aug", "Sep", "Oct", "Nov", "Dec"]

/-- A number with at least `width` digits. -/
def padded (width n : Nat) : String :=
  let digits := toString n
  String.ofList (List.replicate (width - digits.length) '0') ++ digits

/-- A year: four digits, with a sign where it lies outside of them. -/
def yearText (year : Int) : String :=
  if year < 0 then "-" ++ padded 4 year.natAbs
  else if year > 9999 then "+" ++ padded 4 year.natAbs
  else padded 4 year.natAbs

/-- The text of the moment `seconds` after the start of 1970. -/
def text (seconds : Int) : String :=
  let days := seconds.fdiv 86400
  let second := (seconds.fmod 86400).toNat
  let d := ofDays days
  let weekday := weekdays.getD (days.fmod 7).toNat ""
  let month := months.getD (d.month - 1) ""
  s!"{weekday}, {padded 2 d.day} {month} {yearText d.year} "
    ++ s!"{padded 2 (second / 3600)}:{padded 2 (second / 60 % 60)}:{padded 2 (second % 60)} GMT"

end ApiClient.Date
