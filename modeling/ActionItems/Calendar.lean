/-!
# Dates and times of day

Dates of the Gregorian calendar from year 1 to year 9999, times of day to the microsecond, and the
date of a number of seconds counted from the start of 1970. A date or time is built only from
numbers in range, and `CalendarError` says which one is not.
-/

namespace ActionItems

/-- The least and the greatest year of a date. -/
def firstYear : Int := 1

/-- The greatest year of a date. -/
def lastYear : Int := 9999

/-- Why numbers do not make a date or a time. -/
inductive CalendarError where
  | year (year : Int)
  | month
  | day
  | hour
  | minute
  | second
  /-- A distance from universal time of a day or more, in seconds. -/
  | offset (seconds : Int)
deriving Repr, DecidableEq

/-- A time span, written as whole days and the seconds left over. -/
def showSpan (seconds : Int) : String :=
  let days := seconds.fdiv 86400
  let rest := seconds.fmod 86400
  let parts :=
    (if days = 0 then [] else ["days=" ++ toString days]) ++
      (if rest = 0 then [] else ["seconds=" ++ toString rest])
  "datetime.timedelta(" ++ (if parts.isEmpty then "0" else ", ".intercalate parts) ++ ")"

/-- The wording of a date or time that cannot be. -/
def CalendarError.message : CalendarError → String
  | .year y => "year " ++ toString y ++ " is out of range"
  | .month => "month must be in 1..12"
  | .day => "day is out of range for month"
  | .hour => "hour must be in 0..23"
  | .minute => "minute must be in 0..59"
  | .second => "second must be in 0..59"
  | .offset s =>
    "offset must be a timedelta strictly between -timedelta(hours=24) and timedelta(hours=24), not "
      ++ showSpan s ++ "."

/-- Whether a year has a 29th of February. -/
def isLeapYear (y : Int) : Bool := y % 4 = 0 && (y % 100 != 0 || y % 400 = 0)

/-- The number of days of a month. -/
def daysInMonth (y : Int) (m : Nat) : Nat :=
  if m = 2 then if isLeapYear y then 29 else 28
  else if m = 4 || m = 6 || m = 9 || m = 11 then 30
  else 31

/-- A date. -/
structure Date where
  year : Int
  month : Nat
  day : Nat
deriving Repr, DecidableEq

/-- A date and a time of day, with its distance from universal time if that is known. -/
structure Moment where
  date : Date
  hour : Nat
  minute : Nat
  second : Nat
  microsecond : Nat := 0
  offset? : Option Int := none
deriving Repr, DecidableEq

/-- The date made of three numbers. -/
def Date.ofNumbers (year : Int) (month day : Nat) : Except CalendarError Date :=
  if year < firstYear || year > lastYear then .error (.year year)
  else if month < 1 || month > 12 then .error .month
  else if day < 1 || day > daysInMonth year month then .error .day
  else .ok ⟨year, month, day⟩

/-- The moment made of a date, a time of day and a distance from universal time in seconds. -/
def Moment.ofNumbers (year : Int) (month day hour minute second microsecond : Nat)
    (offset? : Option Int) : Except CalendarError Moment := do
  if let some s := offset? then
    if s ≤ -86400 || s ≥ 86400 then throw (.offset s)
  let date ← Date.ofNumbers year month day
  if hour > 23 then throw .hour
  if minute > 59 then throw .minute
  if second > 59 then throw .second
  return ⟨date, hour, minute, second, microsecond, offset?⟩

/-- The date that lies `days` days after the start of 1970, in the calendar without bounds. -/
def civilDate (days : Int) : Int × Nat × Nat :=
  let shifted := days + 719468
  let era := shifted.fdiv 146097
  let dayOfEra := (shifted - era * 146097).toNat
  let yearOfEra := (dayOfEra - dayOfEra / 1460 + dayOfEra / 36524 - dayOfEra / 146096) / 365
  let dayOfYear := dayOfEra - (365 * yearOfEra + yearOfEra / 4 - yearOfEra / 100)
  let march := (5 * dayOfYear + 2) / 153
  let day := dayOfYear - (153 * march + 2) / 5 + 1
  let month := if march < 10 then march + 3 else march - 9
  (yearOfEra + era * 400 + (if month ≤ 2 then 1 else 0), month, day)

/-- A number with at least `width` digits. -/
def padNumber (width n : Nat) : String :=
  let digits := toString n
  String.ofList (List.replicate (width - digits.length) '0') ++ digits

/-- A moment as a date and a time. -/
def Moment.text (m : Moment) : String :=
  padNumber 4 m.date.year.toNat ++ "-" ++ padNumber 2 m.date.month ++ "-" ++ padNumber 2 m.date.day
    ++ " " ++ padNumber 2 m.hour ++ ":" ++ padNumber 2 m.minute ++ ":" ++ padNumber 2 m.second

end ActionItems
