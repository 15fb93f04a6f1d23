/-!
# `SealedEnvelope.Time.Calendar`: dates and the number of days

The proleptic Gregorian calendar without a year limit in either direction; the year
before year 1 is year 0. Days are counted from the first of January 1970.

Years are counted from March within cycles of 400 years, which all have 146097 days, so
that the day that some years have and others do not is the last one of its year.
-/

set_option autoImplicit false

namespace SealedEnvelope

/-- A date. Whether it exists is the matter of `Date.isValid`. -/
structure Date where
  year : Int
  month : Nat
  day : Nat
  deriving DecidableEq, Repr

namespace Date

/-- Whether a year has 366 days. -/
def isLeapYear (year : Int) : Bool := year % 4 == 0 && (year % 100 != 0 || year % 400 == 0)

/-- The number of days of a month; zero if there is no such month. -/
def monthLength (year : Int) (month : Nat) : Nat :=
  if month = 2 then (if isLeapYear year then 29 else 28)
  else if month = 4 ∨ month = 6 ∨ month = 9 ∨ month = 11 then 30
  else if 1 ≤ month ∧ month ≤ 12 then 31
  else 0

/-- Whether there is such a date. -/
def isValid (date : Date) : Bool := 1 ≤ date.day && date.day ≤ monthLength date.year date.month

/-- The number of days before the date within a cycle that starts on the first of March
of a year divisible by 400, given the year within the cycle and the month from March. -/
def dayOfCycle (yearOfCycle month day : Nat) : Nat :=
  yearOfCycle * 365 + yearOfCycle / 4 - yearOfCycle / 100 + ((153 * month + 2) / 5 + (day - 1))

/-- The number of days from the first of January 1970 to the date. -/
def toDays (date : Date) : Int :=
  let year := if date.month ≤ 2 then date.year - 1 else date.year
  let month := (date.month + 9) % 12
  year / 400 * 146097 + dayOfCycle (year % 400).toNat month date.day - 719468

/-- The date so many days after the first of January 1970. -/
def ofDays (days : Int) : Date :=
  let shifted := days + 719468
  let dayOfCycle := (shifted % 146097).toNat
  -- One day is taken off for each leap day before it, so that every year has 365.
  let yearOfCycle :=
    (dayOfCycle - dayOfCycle / 1460 + dayOfCycle / 36524 - dayOfCycle / 146096) / 365
  let dayOfYear := dayOfCycle - (365 * yearOfCycle + yearOfCycle / 4 - yearOfCycle / 100)
  let fromMarch := (5 * dayOfYear + 2) / 153
  let month := if fromMarch < 10 then fromMarch + 3 else fromMarch - 9
  let year := shifted / 146097 * 400 + yearOfCycle
  { year := if month ≤ 2 then year + 1 else year
    month := month
    day := dayOfYear - (153 * fromMarch + 2) / 5 + 1 }

end Date

end SealedEnvelope
