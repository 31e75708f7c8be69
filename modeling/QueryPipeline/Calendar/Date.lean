/-!
# Dates and times of day

A date of the Gregorian calendar, continued to all years in both directions, and a time of day down
to the nanosecond. Both types hold only real dates and times: a date exists in its month, and only
the last second of a minute may be a leap second, which is counted as a second second of
nanoseconds.
-/

set_option autoImplicit false

namespace QueryPipeline.Calendar

/-- Every fourth year is a leap year, except the full centuries that 400 does not divide. -/
def isLeapYear (year : Int) : Bool :=
  year % 4 == 0 && (year % 100 != 0 || year % 400 == 0)

/-- The number of days of a month. -/
def daysInMonth (year : Int) (month : Nat) : Nat :=
  if month = 2 then (if isLeapYear year then 29 else 28)
  else if month = 4 ∨ month = 6 ∨ month = 9 ∨ month = 11 then 30
  else 31

/-- The day exists in the month, and the year is one the calendar covers. -/
def isDay (year : Int) (month day : Nat) : Bool :=
  -262143 ≤ year && year ≤ 262142 && 1 ≤ month && month ≤ 12 && 1 ≤ day
    && day ≤ daysInMonth year month

/-- A date of the calendar. -/
structure Date where
  year : Int
  month : Nat
  day : Nat
  exists_in_calendar : isDay year month day = true
deriving DecidableEq, Repr

/-- The date with these parts, if there is one. -/
def Date.ofParts? (year : Int) (month day : Nat) : Option Date :=
  if h : isDay year month day = true then some ⟨year, month, day, h⟩ else none

/-- The clock shows this time; 10⁹ nanoseconds and more belong to a leap second. -/
def isTime (hour minute second nanosecond : Nat) : Bool :=
  hour < 24 && minute < 60 && second < 60
    && (nanosecond < 1000000000 || (second == 59 && nanosecond < 2000000000))

/-- A time of day. -/
structure Time where
  hour : Nat
  minute : Nat
  second : Nat
  nanosecond : Nat
  shown_by_clock : isTime hour minute second nanosecond = true
deriving DecidableEq, Repr

/-- The time with these parts, if there is one. -/
def Time.ofParts? (hour minute second nanosecond : Nat) : Option Time :=
  if h : isTime hour minute second nanosecond = true then
    some ⟨hour, minute, second, nanosecond, h⟩
  else none

/-- The first moment of a day. -/
def Time.midnight : Time := ⟨0, 0, 0, 0, rfl⟩

/-- A date with a time of day. -/
structure DateTime where
  date : Date
  time : Time
deriving DecidableEq, Repr

end QueryPipeline.Calendar
