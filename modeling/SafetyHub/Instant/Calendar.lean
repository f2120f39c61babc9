/-!
# The calendar

Dates of the Gregorian calendar, extended without end in both directions, and their numbers of
days.  Years are counted from March, so that the leap day is the last day of its year:
`daysBefore y` is the number of days from 1 March of the year 0 to 1 March of the year `y`, and
`yearOf` finds the year that holds a day.
-/

namespace SafetyHub

/-- A date of the calendar. -/
structure Date where
  year : Int
  month : Nat
  day : Nat
deriving DecidableEq, Repr, Inhabited

namespace Date

/-- Whether a year has a leap day. -/
def isLeap (y : Int) : Bool :=
  y % 4 == 0 && (y % 100 != 0 || y % 400 == 0)

/-- The number of days of a month. -/
def daysIn (y : Int) (month : Nat) : Nat :=
  if month == 2 then if isLeap y then 29 else 28
  else if month == 4 || month == 6 || month == 9 || month == 11 then 30
  else 31

/-- Whether the calendar has the date. -/
def isValid (d : Date) : Bool :=
  1 ≤ d.month && d.month ≤ 12 && 1 ≤ d.day && d.day ≤ daysIn d.year d.month

/-! ### Years from March -/

/-- The days from 1 March of the year 0 to 1 March of the year `y`. -/
def daysBefore (y : Int) : Int :=
  365 * y + y / 4 - y / 100 + y / 400

/-- The year from March to February that holds a day. -/
def yearOf (z : Int) : Int :=
  let y := 400 * z / 146097
  if z < daysBefore y then y - 1 else if daysBefore (y + 1) ≤ z then y + 1 else y

theorem daysBefore_yearOf_le (z : Int) :
  daysBefore (yearOf z) ≤ z
  := by
  simp only [yearOf]
  split
  · simp only [daysBefore] at *
    omega
  · split
    · assumption
    · omega

theorem lt_daysBefore_yearOf (z : Int) :
  z < daysBefore (yearOf z + 1)
  := by
  simp only [yearOf]
  split
  · simpa using ‹_›
  · split
    · simp only [daysBefore] at *
      omega
    · omega

/-- The days before a month that is counted from March as zero. -/
def daysBeforeMonth (m : Nat) : Nat :=
  (153 * m + 2) / 5

/-- The month, counted from March as zero, that holds a day of the year. -/
def monthOf (dayOfYear : Nat) : Nat :=
  (5 * dayOfYear + 2) / 153

/-! ### Days from the epoch -/

/-- The days from 1 March of the year 0 to 1 January 1970. -/
def epochDay : Int := 719468

/-- The days from 1 January 1970 to a date. -/
def toDays (d : Date) : Int :=
  if d.month ≤ 2 then
    daysBefore (d.year - 1) + daysBeforeMonth (d.month + 9) + d.day - 1 - epochDay
  else
    daysBefore d.year + daysBeforeMonth (d.month - 3) + d.day - 1 - epochDay

/-- The date a number of days after 1 January 1970. -/
def ofDays (days : Int) : Date :=
  let z := days + epochDay
  let y := yearOf z
  let dayOfYear := (z - daysBefore y).toNat
  let m := monthOf dayOfYear
  let day := dayOfYear - daysBeforeMonth m + 1
  if m < 10 then ⟨y, m + 3, day⟩ else ⟨y + 1, m - 9, day⟩

example : toDays ⟨1970, 1, 1⟩ = 0 := by decide
example : toDays ⟨2024, 2, 29⟩ = 19782 := by decide
example : ofDays 19782 = ⟨2024, 2, 29⟩ := by decide
example : ofDays (-1) = ⟨1969, 12, 31⟩ := by decide

end Date

end SafetyHub
