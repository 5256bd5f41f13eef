import Prognosis.Decimal.Written

/-! Days of the calendar from year 1 to year 9999, and how months and days follow each other.
-/

namespace Prognosis

open Decimal

/-- Leap years are the multiples of four, save those of a hundred that are none of four
hundred.
-/
def isLeapYear (year : Nat) : Bool :=
  year % 4 == 0 && (year % 100 != 0 || year % 400 == 0)

/-- Length of a month. -/
def daysInMonth (year month : Nat) : Nat :=
  match month with
  | 2 => if isLeapYear year then 29 else 28
  | 4 => 30
  | 6 => 30
  | 9 => 30
  | 11 => 30
  | _ => 31

/-- Length of a year. -/
def daysInYear (year : Nat) : Nat :=
  if isLeapYear year then 366 else 365

/-- A day of the calendar. -/
structure Date where
  year : Nat
  month : Nat
  day : Nat
  year_pos : 1 ≤ year
  year_le : year ≤ 9999
  month_pos : 1 ≤ month
  month_le : month ≤ 12
  day_pos : 1 ≤ day
  day_le : day ≤ daysInMonth year month
  deriving DecidableEq, Repr

namespace Date

/-- The day with these numbers, if the calendar has it. -/
def ofNumbers? (year month day : Nat) : Option Date :=
  if hy : 1 ≤ year ∧ year ≤ 9999 then
    if hm : 1 ≤ month ∧ month ≤ 12 then
      if hd : 1 ≤ day ∧ day ≤ daysInMonth year month then
        some ⟨year, month, day, hy.1, hy.2, hm.1, hm.2, hd.1, hd.2⟩
      else none
    else none
  else none

/-- Position of the day in a count that gives every month 31 places. -/
def key (d : Date) : Nat :=
  (d.year * 12 + (d.month - 1)) * 31 + (d.day - 1)

/-- The first date is not after the second. -/
def notAfter (d e : Date) : Bool :=
  d.key ≤ e.key

/-- Days of the year up to and with this one. -/
def dayOfYear (d : Date) : Nat :=
  (List.range (d.month - 1)).foldl (fun days m => days + daysInMonth d.year (m + 1)) d.day

/-- The day after, if the calendar has it. -/
def next? (d : Date) : Option Date :=
  if d.day < daysInMonth d.year d.month then ofNumbers? d.year d.month (d.day + 1)
  else if d.month < 12 then ofNumbers? d.year (d.month + 1) 1
  else ofNumbers? (d.year + 1) 1 1

/-- The day so many days later, if the calendar has it. -/
def addDays? (d : Date) : Nat → Option Date
  | 0 => some d
  | n + 1 => (d.next?).bind fun e => e.addDays? n

/-- The same day so many months later, or the last day of that month when it is shorter. -/
def addMonths? (d : Date) (count : Nat) : Option Date :=
  let months := d.month - 1 + count
  let year := d.year + months / 12
  let month := months % 12 + 1
  ofNumbers? year month (min d.day (daysInMonth year month))

/-- Year, month and day with hyphens. -/
def text (d : Date) : String :=
  paddedText 4 d.year ++ "-" ++ paddedText 2 d.month ++ "-" ++ paddedText 2 d.day

end Date

end Prognosis
