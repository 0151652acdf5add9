import FlightRecorder.Text.Scan

/-!
# Dates

The date of a record as the device tells it: three numbers, which need not form a day of the
calendar. `Date.IsCalendarDay` says when they do.
-/

namespace FlightRecorder

/-- A year, a month and a day, each of any size. -/
structure Date where
  year : UInt32
  month : UInt32
  day : UInt32
  deriving DecidableEq, Repr

namespace Date

/-! ## Text -/

/-- The date as `YYYY-MM-DD`; longer numbers keep all their digits. -/
def display (d : Date) : String :=
  String.ofList (paddedDecimal 4 d.year.toNat ++ ['-'] ++ paddedDecimal 2 d.month.toNat ++ ['-']
    ++ paddedDecimal 2 d.day.toNat)

/-- Reads `YYYY-MM-DD`, with any number of digits and anything behind them. -/
def parse? (text : List Char) : Option Date := do
  let (year, month, day) ← takeTriple? '-' text
  pure { year := year, month := month, day := day }

/-!
## The calendar

The days are those of `chrono`'s dates without a time zone. Three things are taken over from there:
which days there are (the Gregorian calendar at all times, with a year 0, and no day behind the year
`lastYear`), that a month or day out of range is refused rather than counted on, and how a day is
written.
-/

/-- The last year that the calendar counts. -/
def lastYear : Nat := 262142

/-- Leap years of the Gregorian calendar, also before its introduction. -/
def isLeapYear (year : Nat) : Bool := year % 4 = 0 && (year % 100 ≠ 0 || year % 400 = 0)

/-- Number of days of a month; `0` for a number that is no month. -/
def daysInMonth (year month : Nat) : Nat :=
  if month = 2 then (if isLeapYear year then 29 else 28)
  else if month = 4 ∨ month = 6 ∨ month = 9 ∨ month = 11 then 30
  else if 1 ≤ month ∧ month ≤ 12 then 31
  else 0

/-- Whether the three numbers are a day of the calendar. -/
def IsCalendarDay (d : Date) : Prop :=
  d.year.toNat ≤ lastYear ∧ 1 ≤ d.day.toNat ∧
    d.day.toNat ≤ daysInMonth d.year.toNat d.month.toNat

instance (d : Date) : Decidable d.IsCalendarDay := by
  unfold IsCalendarDay
  infer_instance

/-- A day of the calendar as text, as `chrono` writes it: the year with at least four digits, and
with a plus sign before it if it has more than four. -/
def calendarText? (d : Date) : Option String :=
  if d.IsCalendarDay then
    some (if d.year.toNat < 10000 then d.display else "+" ++ d.display)
  else none

end Date

end FlightRecorder
