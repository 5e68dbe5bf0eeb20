import ActionItems.Calendar
import ActionItems.Number.Integer

/-!
# Points in time

A point in time is a number of seconds since the start of 1970 in universal time.
`Instant.ofSeconds` accepts the numbers whose date is in the calendar, with a day to spare at its
beginning, and tells how far off any other is: beyond the calendar, beyond 32 bits of years, or
beyond 64 bits of seconds. `Instant.moment` is the date and time of day.
-/

namespace ActionItems

open ActionItems.Number (showInt)

/-- The number of seconds of a day. -/
def secondsPerDay : Int := 86400

/-- A point in time. -/
structure Instant where
  seconds : Int
deriving Repr, DecidableEq

/-- Why a number of seconds is no point in time. -/
inductive InstantError where
  /-- The number is too large for 64 bits. -/
  | seconds
  /-- The number of years since 1900 is too large for 32 bits. -/
  | years
  /-- The year, in 32 bits, is not in the calendar. -/
  | year (year : Int)
deriving Repr, DecidableEq

/-- The wording of a number of seconds that is no point in time. -/
def InstantError.message : InstantError → String
  | .seconds => "timestamp out of range for platform time_t"
  | .years => "[Errno 75] Value too large for defined data type"
  | .year y => "year " ++ showInt y ++ " is out of range"

/-- Whether a number can be written in `bits` bits, one of them for the sign. -/
def fitsBits (bits : Nat) (n : Int) : Bool :=
  let bound : Int := Nat.pow 2 (bits - 1)
  decide (-bound ≤ n) && decide (n < bound)

/-- The year of a number of seconds, in a calendar without bounds. -/
def yearOfSeconds (seconds : Int) : Int := (civilDate (seconds.fdiv secondsPerDay)).1

/-- Whether a year is in the calendar. -/
def isCalendarYear (y : Int) : Bool := decide (firstYear ≤ y) && decide (y ≤ lastYear)

namespace Instant

/-- The point in time after a number of seconds. -/
def ofSeconds (seconds : Int) : Except InstantError Instant :=
  let year := yearOfSeconds seconds
  let dayBefore := yearOfSeconds (seconds - secondsPerDay)
  if !fitsBits 64 seconds then .error .seconds
  else if !fitsBits 32 (year - 1900) then .error .years
  else if !isCalendarYear year then .error (.year (year.bmod 0x100000000))
  else if !isCalendarYear dayBefore then .error (.year dayBefore)
  else .ok ⟨seconds⟩

/-- The date and the time of day of a point in time. -/
def moment (t : Instant) : Moment :=
  let (year, month, day) := civilDate (t.seconds.fdiv secondsPerDay)
  let rest := (t.seconds.fmod secondsPerDay).toNat
  { date := ⟨year, month, day⟩
    hour := rest / 3600
    minute := rest / 60 % 60
    second := rest % 60 }

/-- A point in time as a date and a time of day. -/
def text (t : Instant) : String := t.moment.text

/-- Whether a point in time comes before another one. -/
def before (t u : Instant) : Bool := decide (t.seconds < u.seconds)

/-- The point in time some seconds later. -/
def after (t : Instant) (seconds : Int) : Instant := ⟨t.seconds + seconds⟩

end Instant

end ActionItems
