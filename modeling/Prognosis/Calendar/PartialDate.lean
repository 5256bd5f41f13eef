import Prognosis.Calendar.Date
import Prognosis.Fault
import Prognosis.Scalar

/-! Dates as they are written in scenarios, where the day or the month may be missing, and the
continuous time axis of years.
-/

namespace Prognosis

open Decimal

/-- A date as written: a year, perhaps a month, perhaps a day. -/
structure PartialDate where
  year : Int
  month : Option Int
  day : Option Int
  deriving DecidableEq, Repr

namespace PartialDate

/-- A year on its own. -/
def ofYear (year : Int) : PartialDate :=
  ⟨year, none, none⟩

/-- A part of a date, or what stands for it when it is missing or zero. -/
def given (part : Option Int) (otherwise : Int) : Int :=
  match part with
  | none => otherwise
  | some n => if n == 0 then otherwise else n

/-- Chronological order of dates as written: missing parts count as one. -/
def sortKey (d : PartialDate) : Int × Int × Int :=
  (d.year, given d.month 1, given d.day 1)

/-- The first date comes before the second. -/
def before (d e : PartialDate) : Bool :=
  let (y, m, n) := d.sortKey
  let (y', m', n') := e.sortKey
  y < y' || y == y' && (m < m' || m == m' && n < n')

/-- The number fits the machine integers in which calendars count. -/
def countable (n : Int) : Bool :=
  -2147483648 ≤ n && n ≤ 2147483647

/-- The day with these numbers. Numbers beyond machine integers overflow, and others that are
no day are outside the domain of dates.
-/
def resolve (year month day : Int) : Except Fault Date :=
  if !countable year || !countable month || !countable day then .error .overflow
  else
    match Date.ofNumbers? year.toNat month.toNat day.toNat with
    | some date => if 0 ≤ year && 0 ≤ month && 0 ≤ day then .ok date else .error .domain
    | none => .error .domain

/-- First day of the period that is written. -/
def start (d : PartialDate) : Except Fault Date :=
  resolve d.year (given d.month 1) (given d.day 1)

/-- Last day of the period that is written. A missing day asks for the length of the month,
which must exist.
-/
def finish (d : PartialDate) : Except Fault Date :=
  let month := given d.month 12
  let day := given d.day 0
  if day != 0 then resolve d.year month day
  else if month < 1 || 12 < month then .error .noSuchMonth
  else resolve d.year month (daysInMonth (d.year.emod 400).toNat month.toNat)

/-- A number padded with zeros to a width, the sign included. -/
def paddedInt (width : Nat) (n : Int) : String :=
  if n < 0 then "-" ++ paddedText (width - 1) n.natAbs else paddedText width n.natAbs

/-- The date as written. -/
def text (d : PartialDate) : String :=
  let month :=
    match d.month with
    | none => ""
    | some m =>
        "-" ++ paddedInt 2 m ++ (d.day.map fun n => "-" ++ paddedInt 2 n).getD ""
  paddedInt 4 d.year ++ month

end PartialDate

/-- Place of a day on the axis of years: the year and the share of it that has passed before
the day.
-/
def Date.yearFraction {α : Type} [Scalar α] (d : Date) : α :=
  Scalar.ofNat d.year + Scalar.ofNat (d.dayOfYear - 1) / Scalar.ofNat (daysInYear d.year)

/-- Place of a written date on the axis of years. -/
def PartialDate.yearFraction {α : Type} [Scalar α] (d : PartialDate) : Except Fault α :=
  d.start.map Date.yearFraction

/-- Units of durations. -/
inductive TimeUnit where
  | year | month | week | day | second
  deriving DecidableEq, Repr

namespace TimeUnit

/-- Letter of the unit. -/
def letter : TimeUnit → Char
  | year => 'y'
  | month => 'm'
  | week => 'w'
  | day => 'd'
  | second => 's'

/-- The unit with this letter. -/
def ofLetter? : Char → Option TimeUnit
  | 'y' => some year
  | 'm' => some month
  | 'w' => some week
  | 'd' => some day
  | 's' => some second
  | _ => none

/-- Length of the unit in years. -/
def years {α : Type} [Scalar α] (u : TimeUnit) : α :=
  let count : Nat :=
    match u with
    | year => 1
    | month => 12
    | week => 52
    | day => 365
    | second => 365 * 86400
  Scalar.one / Scalar.ofNat count

end TimeUnit

/-- A span of time as written. -/
structure Duration (α : Type) where
  amount : α
  unit : TimeUnit
  deriving DecidableEq, Repr

namespace Duration

variable {α : Type} [Scalar α]

/-- Length in years. -/
def years (d : Duration α) : α :=
  d.amount * d.unit.years

/-- The duration as written. -/
def text (d : Duration α) : String :=
  Scalar.general d.amount ++ d.unit.letter.toString

end Duration

end Prognosis
