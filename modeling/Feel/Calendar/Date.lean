/-!
# Dates

Dates of the proleptic Gregorian calendar, between the years -262143 and 262142. A date is
its year, month and day; day arithmetic goes through the number of days since the start
of the era.

* `Date.ofYmd?`: the only way to make a date.
* `Date.dayNumber`, `Date.ofDayNumber?`: days counted from 0001-01-01, which is day one.
* `Date.addMonths?`: shifting by months, with the day clamped to the month.
* `Date.isoWeek`: the week of the year that holds most of its days.
-/

namespace Feel

namespace Date

def minYear : Int := -262143

def maxYear : Int := 262142

/-- Every fourth year, except centuries that are not divisible by 400. -/
def isLeap (year : Int) : Bool := year % 4 == 0 && (year % 100 != 0 || year % 400 == 0)

def daysInYear (year : Int) : Nat := if isLeap year then 366 else 365

/-- The length of a month; zero for what is no month. -/
def daysInMonth (year : Int) : Nat → Nat
  | 1 | 3 | 5 | 7 | 8 | 10 | 12 => 31
  | 4 | 6 | 9 | 11 => 30
  | 2 => if isLeap year then 29 else 28
  | _ => 0

/-- Year, month and day name a day of the calendar. -/
def inCalendar (year : Int) (month day : Nat) : Bool :=
  decide (minYear ≤ year) && decide (year ≤ maxYear) && decide (1 ≤ day) &&
    decide (day ≤ daysInMonth year month)

end Date

/-- A day of the calendar. -/
structure Date where
  year : Int
  month : Nat
  day : Nat
  valid : Date.inCalendar year month day = true
  deriving DecidableEq

namespace Date

/-- The date of a year, a month and a day, if there is one. -/
def ofYmd? (year : Int) (month day : Nat) : Option Date :=
  if h : inCalendar year month day = true then some ⟨year, month, day, h⟩ else none

@[simp] theorem ofYmd?_self (d : Date) : ofYmd? d.year d.month d.day = some d := by
  simp [ofYmd?, d.valid]

/-- The first day of 1970. -/
def epoch : Date := ⟨1970, 1, 1, by decide⟩

/-- The order of dates is that of their years, months and days. -/
def order (a b : Date) : Ordering :=
  (compare a.year b.year).then ((compare a.month b.month).then (compare a.day b.day))

/-! ### Days -/

/-- The days of the months before a month. -/
def daysBefore (year : Int) : Nat → Nat
  | 0 => 0
  | m + 1 => daysBefore year m + daysInMonth year m

/-- The place of the day in its year, from one. -/
def ordinal (d : Date) : Nat := daysBefore d.year d.month + d.day

/-- The days up to and including the date, from 0001-01-01 on. -/
def dayNumber (d : Date) : Int :=
  let y := d.year - 1
  365 * y + y / 4 - y / 100 + y / 400 + d.ordinal

/-- The year, month and day of a day number. Years are counted from the first of March
here, so that the leap day is the last of its year. -/
def civil (n : Int) : Int × Nat × Nat :=
  let z := n + 305
  let era := z / 146097
  let doe := z - era * 146097
  let yoe := (doe - doe / 1460 + doe / 36524 - doe / 146096) / 365
  let doy := doe - (365 * yoe + yoe / 4 - yoe / 100)
  let mp := (5 * doy + 2) / 153
  let day := doy - (153 * mp + 2) / 5 + 1
  let month := if mp < 10 then mp + 3 else mp - 9
  let year := yoe + era * 400 + if month ≤ 2 then 1 else 0
  (year, month.toNat, day.toNat)

/-- The date of a day number, if it lies in the calendar. -/
def ofDayNumber? (n : Int) : Option Date :=
  let (year, month, day) := civil n
  ofYmd? year month day

/-- The days between two dates. -/
def daysSince (a b : Date) : Int := a.dayNumber - b.dayNumber

/-- The date `n` days later. -/
def addDays? (d : Date) (n : Int) : Option Date := ofDayNumber? (d.dayNumber + n)

/-- The days since the first of January 1970. -/
def epochDay (d : Date) : Int := d.daysSince epoch

/-! ### Months -/

/-- The date `n` months later; a day beyond the end of the month becomes its last. -/
def addMonths? (d : Date) (n : Int) : Option Date :=
  let total := d.year * 12 + (d.month - 1) + n
  let year := total / 12
  let month := (total % 12).toNat + 1
  ofYmd? year month (min d.day (daysInMonth year month))

/-! ### Weeks -/

/-- The day of the week, from Monday as zero. -/
def weekday (d : Date) : Nat := ((d.dayNumber - 1) % 7).toNat

/-- The number of weeks that begin in a year or shortly before it: 53 when the year starts
on a Thursday, or on a Wednesday and is a leap year. -/
def weeksInYear (year : Int) : Int :=
  let y := year - 1
  let first := (365 * y + y / 4 - y / 100 + y / 400) % 7
  if first = 3 || (first = 2 && isLeap year) then 53 else 52

/-- The week of the year; a week belongs to the year that holds its Thursday. -/
def isoWeek (d : Date) : Nat :=
  let week := ((d.ordinal : Int) - (d.weekday + 1) + 10) / 7
  if week < 1 then (weeksInYear (d.year - 1)).toNat
  else if weeksInYear d.year < week then 1
  else week.toNat

end Date

end Feel
