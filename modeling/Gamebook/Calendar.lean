/-!
# Times of the calendar

Times are counted in microseconds from the beginning of the year 1.  The calendar ends with the year
9999.

* `Calendar.yearStart`, `Calendar.isTime` : the beginning of a year, and the times of the calendar.
* `CalendarFault`                         : why a time cannot be reached, and the wording.
* `Calendar.span`                         : hours in microseconds, within the longest span there is.
* `Calendar.before`, `Calendar.after`     : the time some hours before and after another.

The times are those that `save_story` writes down and `remove_inactive_stories` compares.
-/

set_option autoImplicit false

namespace Gamebook

/-- Why a time cannot be reached. -/
inductive CalendarFault where
  /-- The days of a span do not fit a signed 32-bit word. -/
  | oversized
  /-- A span has more days than any may have. -/
  | tooLong (days : Int)
  /-- The time lies outside the calendar. -/
  | outside
  deriving DecidableEq, Repr

def CalendarFault.message : CalendarFault → String
  | .oversized => "Python int too large to convert to C int"
  | .tooLong days => "days=" ++ Int.repr days ++ "; must have magnitude <= 999999999"
  | .outside => "date value out of range"

namespace Calendar

def hour : Int := 3600000000

def day : Int := 24 * hour

/-- Days of a number of years from the year 1 on: 365 each, and one more in every fourth, save that
of the hundredths only every fourth has it. -/
def daysOfYears (years : Int) : Int := 365 * years + years / 4 - years / 100 + years / 400

def yearStart (year : Int) : Int := daysOfYears (year - 1) * day

/-- The time lies in the years 1 to 9999. -/
def isTime (time : Int) : Bool := decide (0 ≤ time) && decide (time < yearStart 10000)

/-- The most days of a span, in either direction. -/
def longestSpan : Int := 999999999

/-- The bound on the days of a span that are looked at: they fit a signed 32-bit word. -/
def dayBound : Int := 2147483648

/-- Some hours in microseconds.  The days of a span are whole, also of a negative one, so that the
rest of it is not negative. -/
def span (hours : Int) : Except CalendarFault Int :=
  let days := hours / 24
  if days < -dayBound ∨ dayBound ≤ days then .error .oversized
  else if days < -longestSpan ∨ longestSpan < days then .error (.tooLong days)
  else .ok (hours * hour)

def within (time : Int) : Except CalendarFault Int :=
  if isTime time then .ok time else .error .outside

/-- The time some hours before another. -/
def before (time hours : Int) : Except CalendarFault Int := do within (time - (← span hours))

/-- The time some hours after another. -/
def after (time hours : Int) : Except CalendarFault Int := do within (time + (← span hours))

end Calendar

end Gamebook
