import Prognosis.Calendar.PartialDate

/-! The days at which a scenario is computed, from the start to the end of its timeframe. -/

namespace Prognosis

/-- The time covered by a scenario. -/
structure Timeframe where
  start : PartialDate
  finish : PartialDate
  deriving DecidableEq, Repr

/-- Distance between the days of a timeline. -/
inductive Resolution where
  | yearly | quarterly | monthly | weekly | daily
  deriving DecidableEq, Repr

namespace Resolution

/-- All resolutions, in the order in which they are offered. -/
def all : List Resolution :=
  [yearly, quarterly, monthly, weekly, daily]

/-- Word for the resolution. -/
def word : Resolution → String
  | yearly => "yearly"
  | quarterly => "quarterly"
  | monthly => "monthly"
  | weekly => "weekly"
  | daily => "daily"

/-- The resolution with this word. -/
def ofWord? (word : String) : Option Resolution :=
  all.find? (·.word == word)

end Resolution

/-- One step of a timeline. -/
inductive Step where
  | days (count : Nat)
  | months (count : Nat)
  deriving DecidableEq, Repr

/-- Step of a resolution. -/
def Resolution.step : Resolution → Step
  | .yearly => .months 12
  | .quarterly => .months 3
  | .monthly => .months 1
  | .weekly => .days 7
  | .daily => .days 1

/-- The timeframe of scenarios that declare none. -/
def Timeframe.standard : Timeframe :=
  ⟨.ofYear 2025, .ofYear 2050⟩

namespace Timeline

theorem ofNumbers?_key {year month day : Nat} {d : Date}
    (h : Date.ofNumbers? year month day = some d)
    : d.key = (year * 12 + (month - 1)) * 31 + (day - 1) := by
  unfold Date.ofNumbers? at h
  split at h
  · split at h
    · split at h
      · cases h
        rfl
      · cases h
    · cases h
  · cases h

theorem daysInMonth_le (year month : Nat) : daysInMonth year month ≤ 31 := by
  unfold daysInMonth
  split
  · split <;> omega
  all_goals omega

/-- The next day has a greater key. -/
theorem key_next? {d e : Date} (h : d.next? = some e)
    : d.key < e.key := by
  have hday := d.day_le
  have hlength := daysInMonth_le d.year d.month
  have hmonth := d.month_le
  have hpos := d.month_pos
  have hdpos := d.day_pos
  unfold Date.next? at h
  split at h
  · have hk := ofNumbers?_key h
    rw [hk, Date.key]
    omega
  · split at h
    · have hk := ofNumbers?_key h
      rw [hk, Date.key]
      omega
    · have hk := ofNumbers?_key h
      rw [hk, Date.key]
      omega

/-- Later days have keys that are not smaller. -/
theorem key_addDays? {d e : Date} {n : Nat} (h : d.addDays? n = some e)
    : d.key + n ≤ e.key := by
  induction n generalizing d with
  | zero =>
      cases h
      omega
  | succ n ih =>
      unfold Date.addDays? at h
      cases hn : d.next? with
      | none => simp [hn] at h
      | some m =>
          simp only [hn, Option.bind_some] at h
          have hstep := key_next? hn
          have hrest := ih h
          omega

/-- Days from the current one up to the end, `count + 1` days apart. -/
def daysFrom (count : Nat) (finish current : Date) : Except Fault (List Date) :=
  if current.notAfter finish then
    match _h : current.addDays? (count + 1) with
    | none => .error .overflow
    | some next => (daysFrom count finish next).map (current :: ·)
  else .ok []
termination_by finish.key + 1 - current.key
decreasing_by
  have hstep := key_addDays? _h
  have hle : current.key ≤ finish.key := by simp_all [Date.notAfter]
  omega

/-- Month count that a day with a whole number of months added can still have. -/
theorem addMonths?_bound {d e : Date} {n : Nat} (h : d.addMonths? n = some e)
    : n ≤ 120000 := by
  simp only [Date.addMonths?, Date.ofNumbers?] at h
  split at h
  · rename_i hy
    have hle := hy.2
    omega
  · cases h

/-- Days from the start up to the end, `count + 1` months apart, from the step with the given
number on. Each is counted from the start, so a short month does not move the later ones.
-/
def monthsFrom (count : Nat) (start finish : Date) (index : Nat) : Except Fault (List Date) :=
  match h : start.addMonths? (index * (count + 1)) with
  | none => .error .domain
  | some current =>
      if current.notAfter finish then
        (monthsFrom count start finish (index + 1)).map (current :: ·)
      else .ok []
termination_by 120001 - index
decreasing_by
  have hbound := addMonths?_bound h
  have hle : index ≤ index * (count + 1) := Nat.le_mul_of_pos_right _ (by omega)
  omega

end Timeline

/-- The days of a timeframe, one step apart, up to its end. The timeframe defaults to the
standard one and the resolution to yearly.
-/
def timeline (timeframe : Option Timeframe) (resolution : Option Resolution)
    : Except Fault (List Date) := do
  let timeframe := timeframe.getD Timeframe.standard
  let start ← timeframe.start.start
  let finish ← timeframe.finish.start
  match (resolution.getD .yearly).step with
  | .days count => Timeline.daysFrom (count - 1) finish start
  | .months count => Timeline.monthsFrom (count - 1) start finish 0

end Prognosis
