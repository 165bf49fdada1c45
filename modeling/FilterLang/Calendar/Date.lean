/-!
# Dates and times of day

Dates of the Gregorian calendar, extended in both directions, with a year zero.  The year has a
range so wide that only deliberate texts leave it.
-/

namespace FilterLang

/-- A year, a month and a day, which need not exist. -/
structure Date where
  year : Int
  month : Nat
  day : Nat
deriving DecidableEq

namespace Date

/-- The year has a 29th of February. -/
def isLeapYear (year : Int) : Bool :=
  year % 4 == 0 && (year % 100 != 0 || year % 400 == 0)

/-- How many days a month has; none, if there is no such month. -/
def daysInMonth (year : Int) (month : Nat) : Nat :=
  if month = 2 then if isLeapYear year then 29 else 28
  else if month ∈ [4, 6, 9, 11] then 30
  else if 1 ≤ month ∧ month ≤ 12 then 31
  else 0

/-- The last year of the calendar. -/
def maxYear : Int := 262142

/-- The first year of the calendar. -/
def minYear : Int := -262143

/-- The date exists. -/
def isValid (d : Date) : Bool :=
  decide (minYear ≤ d.year) && decide (d.year ≤ maxYear) && decide (1 ≤ d.day)
    && decide (d.day ≤ daysInMonth d.year d.month)

/-- The days from the first of March of year zero to the date. -/
def dayNumber (d : Date) : Int :=
  let year := if d.month ≤ 2 then d.year - 1 else d.year
  let month : Int := if d.month ≤ 2 then d.month + 9 else d.month - 3
  365 * year + year / 4 - year / 100 + year / 400 + (153 * month + 2) / 5 + d.day - 1

/-- The day of the week, with Monday as zero. -/
def weekday (d : Date) : Nat := ((d.dayNumber + 2) % 7).toNat

end Date

/-- An hour, a minute and a second, which need not exist. -/
structure TimeOfDay where
  hour : Nat
  minute : Nat
  second : Nat
deriving DecidableEq

namespace TimeOfDay

/-- The time exists; any minute may have a leap second. -/
def isValid (t : TimeOfDay) : Bool :=
  decide (t.hour ≤ 23) && decide (t.minute ≤ 59) && decide (t.second ≤ 60)

/-- The seconds since midnight, a leap second counting as the one before. -/
def seconds (t : TimeOfDay) : Int := t.hour * 3600 + t.minute * 60 + min t.second 59

end TimeOfDay

/-- A date and a time with the distance of the clock from universal time, in seconds. -/
structure Moment where
  date : Date
  time : TimeOfDay
  offset : Int

/-- The moment exists, and its date in universal time is still one of the calendar. -/
def Moment.isValid (m : Moment) : Bool :=
  let inRange :=
    let seconds := m.time.seconds - m.offset
    if m.date = ⟨Date.maxYear, 12, 31⟩ then decide (seconds < 86400)
    else if m.date = ⟨Date.minYear, 1, 1⟩ then decide (0 ≤ seconds)
    else true
  m.date.isValid && m.time.isValid && decide (m.offset.natAbs < 86400) && inRange

end FilterLang
