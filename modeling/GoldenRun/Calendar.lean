/-!
# Instants

An instant is a count of milliseconds since the beginning of 1970, in the proleptic Gregorian
calendar without leap seconds.  A date may be given with months and days beyond their usual
range; they carry over.  Two texts are written: the sortable one and the one with day and month
names.
-/

namespace GoldenRun

/-- Milliseconds since the beginning of 1970. -/
abbrev Instant := Int

namespace Calendar

/-- Days from the beginning of 1970 to a day of a month; the month counts from 1 and must be in
range, the day need not be. -/
def daysFromCivil (year month day : Int) : Int :=
  let y := if month ≤ 2 then year - 1 else year
  let era := y.fdiv 400
  let yoe := y - era * 400
  let doy := (153 * (if month > 2 then month - 3 else month + 9) + 2) / 5 + day - 1
  let doe := yoe * 365 + yoe / 4 - yoe / 100 + doy
  era * 146097 + doe - 719468

/-- The year, month and day of a day since the beginning of 1970. -/
def civilFromDays (days : Int) : Int × Int × Int :=
  let z := days + 719468
  let era := z.fdiv 146097
  let doe := z - era * 146097
  let yoe := (doe - doe / 1460 + doe / 36524 - doe / 146096) / 365
  let doy := doe - (365 * yoe + yoe / 4 - yoe / 100)
  let mp := (5 * doy + 2) / 153
  let day := doy - (153 * mp + 2) / 5 + 1
  let month := if mp < 10 then mp + 3 else mp - 9
  let year := yoe + era * 400
  (if month ≤ 2 then year + 1 else year, month, day)

/-- The milliseconds of a day. -/
def dayLength : Int := 86400000

/-- The instant of a date and time.  The month counts from 0; fields out of range carry over, and
a year below one hundred is one of the twentieth century. -/
def instant (year month day hour minute second millisecond : Int) : Instant :=
  let year := if 0 ≤ year ∧ year ≤ 99 then 1900 + year else year
  let y := year + month.fdiv 12
  let m := month.fmod 12 + 1
  let days := daysFromCivil y m 1 + (day - 1)
  days * dayLength + hour * 3600000 + minute * 60000 + second * 1000 + millisecond

/-- A number with zeros in front, up to a width. -/
def padded (width : Nat) (n : Nat) : String :=
  let digits := Nat.toDigits 10 n
  String.ofList (List.replicate (width - digits.length) '0' ++ digits)

/-- The fields of an instant: year, month, day, hour, minute, second, millisecond. -/
structure Fields where
  /-- The year. -/
  year : Int
  /-- The month, from 1. -/
  month : Nat
  /-- The day of the month, from 1. -/
  day : Nat
  /-- The hour. -/
  hour : Nat
  /-- The minute. -/
  minute : Nat
  /-- The second. -/
  second : Nat
  /-- The millisecond. -/
  millisecond : Nat
  /-- The day of the week, Sunday being 0. -/
  weekday : Nat
  deriving DecidableEq, Repr

/-- The fields of an instant. -/
def fields (t : Instant) : Fields :=
  let days := t.fdiv dayLength
  let inDay := (t.fmod dayLength).toNat
  let (y, m, d) := civilFromDays days
  { year := y, month := m.toNat, day := d.toNat, hour := inDay / 3600000,
    minute := inDay / 60000 % 60, second := inDay / 1000 % 60, millisecond := inDay % 1000,
    weekday := ((days + 4).fmod 7).toNat }

/-- A year of the sortable text: four digits, or a sign and six. -/
def yearText (year : Int) : String :=
  if 0 ≤ year ∧ year ≤ 9999 then padded 4 year.toNat
  else (if year < 0 then "-" else "+") ++ padded 6 year.natAbs

/-- The sortable text of an instant, as in `2001-12-14T21:59:43.100Z`. -/
def sortableText (t : Instant) : String :=
  let f := fields t
  yearText f.year ++ "-" ++ padded 2 f.month ++ "-" ++ padded 2 f.day ++ "T" ++ padded 2 f.hour ++
    ":" ++ padded 2 f.minute ++ ":" ++ padded 2 f.second ++ "." ++ padded 3 f.millisecond ++ "Z"

/-- The names of the days of the week, Sunday first. -/
def weekdayNames : List String := ["Sun", "Mon", "Tue", "Wed", "Thu", "Fri", "Sat"]

/-- The names of the months. -/
def monthNames : List String :=
  ["Jan", "Feb", "Mar", "Apr", "May", "Jun", "Jul", "Aug", "Sep", "Oct", "Nov", "Dec"]

/-- The text of an instant with names, as in
`Fri Dec 14 2001 21:59:43 GMT+0000 (Coordinated Universal Time)`. -/
def longText (t : Instant) : String :=
  let f := fields t
  let year := if f.year < 0 then "-" ++ padded 6 f.year.natAbs else padded 4 f.year.toNat
  (weekdayNames[f.weekday]?.getD "") ++ " " ++ (monthNames[f.month - 1]?.getD "") ++ " " ++
    padded 2 f.day ++ " " ++ year ++ " " ++ padded 2 f.hour ++ ":" ++ padded 2 f.minute ++ ":" ++
    padded 2 f.second ++ " GMT+0000 (Coordinated Universal Time)"

end Calendar

end GoldenRun
