import Prognosis.Calendar.Timeline

/-! The days of a timeframe are exactly those a whole number of steps after its start, up to its
end. Days are measured by their count from the first day of year 1, which orders them as the
calendar does, and so does the axis of years.
-/

namespace Prognosis

/-- Days before the first of January of a year. -/
def daysBeforeYear (year : Nat) : Nat :=
  365 * (year - 1) + (year - 1) / 4 - (year - 1) / 100 + (year - 1) / 400

/-- Days of a year before the first of a month. -/
def daysBeforeMonth (year month : Nat) : Nat :=
  (List.range (month - 1)).foldl (fun days m => days + daysInMonth year (m + 1)) 0

/-- Number of the day when the first day of year 1 has number one. -/
def Date.ordinal (d : Date) : Nat :=
  daysBeforeYear d.year + d.dayOfYear

/-- Number of the last day of the calendar. -/
def lastOrdinal : Nat := 3652059

/-- The day comes so many days after the start. -/
def Date.DaysAfter (start : Date) (count : Nat) (d : Date) : Prop :=
  d.ordinal = start.ordinal + count

/-- Number of the month, twelve to a year. -/
def Date.monthNumber (d : Date) : Nat :=
  d.year * 12 + (d.month - 1)

/-- The day comes so many months after the start: it has the number that the start has in its
month, or is the last day of a month that is shorter.
-/
def Date.MonthsAfter (start : Date) (count : Nat) (d : Date) : Prop :=
  d.monthNumber = start.monthNumber + count
    ∧ d.day = min start.day (daysInMonth d.year d.month)

/-- The day comes so many steps of the resolution after the start. -/
def Resolution.Reaches (start : Date) (steps : Nat) (d : Date) : Resolution → Prop
  | .daily => start.DaysAfter steps d
  | .weekly => start.DaysAfter (7 * steps) d
  | .monthly => start.MonthsAfter steps d
  | .quarterly => start.MonthsAfter (3 * steps) d
  | .yearly => start.MonthsAfter (12 * steps) d

-----------------------------------------------------------------------------------------
-- Months and years
-----------------------------------------------------------------------------------------

theorem daysInMonth_pos (year month : Nat) : 1 ≤ daysInMonth year month := by
  unfold daysInMonth
  split
  · split <;> omega
  all_goals omega

/-- A year adds one to the leap years before it where it is one. The cases are its divisors. -/
theorem leapYears_succ (m : Nat)
    : (m + 1) / 4 - (m + 1) / 100 + (m + 1) / 400
      = m / 4 - m / 100 + m / 400 + if isLeapYear (m + 1) then 1 else 0 := by
  have less : m / 100 ≤ m / 4 := Nat.div_le_div_left (by decide) (by decide)
  have four : (m + 1) / 4 = m / 4 + if (m + 1) % 4 = 0 then 1 else 0 := by
    split <;> omega
  have hundred : (m + 1) / 100 = m / 100 + if (m + 1) % 100 = 0 then 1 else 0 := by
    split <;> omega
  have fourHundred : (m + 1) / 400 = m / 400 + if (m + 1) % 400 = 0 then 1 else 0 := by
    split <;> omega
  rw [four, hundred, fourHundred]
  unfold isLeapYear
  by_cases by400 : (m + 1) % 400 = 0
  · have by100 : (m + 1) % 100 = 0 := by omega
    have by4 : (m + 1) % 4 = 0 := by omega
    simp [by4, by100, by400]
    omega
  · by_cases by100 : (m + 1) % 100 = 0
    · have by4 : (m + 1) % 4 = 0 := by omega
      simp [by4, by100, by400]
    · by_cases by4 : (m + 1) % 4 = 0
      · simp [by4, by100, by400]
        omega
      · simp [by4, by100, by400]

/-- A year that ends adds its length. -/
theorem daysBeforeYear_succ {year : Nat} (pos : 1 ≤ year)
    : daysBeforeYear (year + 1) = daysBeforeYear year + daysInYear year := by
  obtain ⟨m, rfl⟩ : ∃ m, year = m + 1 := ⟨year - 1, by omega⟩
  have leap := leapYears_succ m
  have less : m / 100 ≤ m / 4 := Nat.div_le_div_left (by decide) (by decide)
  have lessAfter : (m + 1) / 100 ≤ (m + 1) / 4 := Nat.div_le_div_left (by decide) (by decide)
  unfold daysInYear daysBeforeYear
  simp only [Nat.add_sub_cancel]
  split at leap
  case isTrue is =>
      rw [if_pos is]
      omega
  case isFalse is =>
      rw [if_neg is]
      omega

theorem daysInYear_bounds (year : Nat) : 365 ≤ daysInYear year ∧ daysInYear year ≤ 366 := by
  unfold daysInYear
  split <;> omega

/-- A month that ends adds its length. -/
theorem daysBeforeMonth_succ (year : Nat) {month : Nat} (pos : 1 ≤ month)
    : daysBeforeMonth year (month + 1)
      = daysBeforeMonth year month + daysInMonth year month := by
  obtain ⟨m, rfl⟩ : ∃ m, month = m + 1 := ⟨month - 1, by omega⟩
  simp only [daysBeforeMonth, Nat.add_sub_cancel, List.range_succ, List.foldl_append,
    List.foldl_cons, List.foldl_nil]

/-- The twelve months make up the year. -/
theorem daysBeforeMonth_thirteen (year : Nat)
    : daysBeforeMonth year 13 = daysInYear year := by
  unfold daysInYear
  by_cases leap : isLeapYear year = true <;>
    simp [daysBeforeMonth, List.range_succ, daysInMonth, leap]

/-- A later month begins after an earlier one has ended. By induction on the later one. -/
theorem daysBeforeMonth_mono (year : Nat) {month later : Nat} (pos : 1 ≤ month)
    (lt : month + 1 ≤ later)
    : daysBeforeMonth year month + daysInMonth year month ≤ daysBeforeMonth year later := by
  induction lt with
  | refl => exact Nat.le_of_eq (daysBeforeMonth_succ year pos).symm
  | @step later lt ih =>
      have grown := daysBeforeMonth_succ year (Nat.le_trans (Nat.succ_pos month) lt)
      rw [Nat.succ_eq_add_one, grown]
      omega

/-- A later year begins after an earlier one has ended. By induction on the later one. -/
theorem daysBeforeYear_mono {year later : Nat} (pos : 1 ≤ year) (lt : year + 1 ≤ later)
    : daysBeforeYear year + daysInYear year ≤ daysBeforeYear later := by
  induction lt with
  | refl => exact Nat.le_of_eq (daysBeforeYear_succ pos).symm
  | @step later lt ih =>
      have grown := daysBeforeYear_succ (Nat.le_trans (Nat.succ_pos year) lt)
      rw [Nat.succ_eq_add_one, grown]
      omega

-----------------------------------------------------------------------------------------
-- Days
-----------------------------------------------------------------------------------------

namespace Date

/-- Days are told apart by their three numbers. -/
theorem eq_of_numbers {d e : Date} (year : d.year = e.year) (month : d.month = e.month)
    (day : d.day = e.day)
    : d = e := by
  cases d
  cases e
  simp_all

/-- What is made of three numbers is the day that has them. -/
theorem ofNumbers?_eq_some_iff {year month day : Nat} {d : Date}
    : ofNumbers? year month day = some d
      ↔ d.year = year ∧ d.month = month ∧ d.day = day := by
  constructor
  · intro made
    unfold ofNumbers? at made
    split at made <;> try cases made
    split at made <;> try cases made
    split at made <;> cases made
    exact ⟨rfl, rfl, rfl⟩
  · rintro ⟨rfl, rfl, rfl⟩
    simp only [ofNumbers?, d.year_pos, d.year_le, d.month_pos, d.month_le, d.day_pos, d.day_le,
      and_self, dite_true]

/-- Numbers in the range of the calendar make a day. -/
theorem exists_ofNumbers? {year month day : Nat} (hy : 1 ≤ year ∧ year ≤ 9999)
    (hm : 1 ≤ month ∧ month ≤ 12) (hd : 1 ≤ day ∧ day ≤ daysInMonth year month)
    : ∃ d, ofNumbers? year month day = some d :=
  ⟨⟨year, month, day, hy.1, hy.2, hm.1, hm.2, hd.1, hd.2⟩, ofNumbers?_eq_some_iff.mpr
    ⟨rfl, rfl, rfl⟩⟩

theorem foldl_days (year : Nat) (months : List Nat) (days : Nat)
    : months.foldl (fun days m => days + daysInMonth year (m + 1)) days
      = months.foldl (fun days m => days + daysInMonth year (m + 1)) 0 + days := by
  induction months generalizing days with
  | nil => simp
  | cons m months ih =>
      rw [List.foldl_cons, List.foldl_cons, ih, ih (0 + _)]
      omega

theorem ordinal_eq (d : Date)
    : d.ordinal = daysBeforeYear d.year + daysBeforeMonth d.year d.month + d.day := by
  rw [ordinal, dayOfYear, foldl_days, ← Nat.add_assoc]
  rfl

/-- A day does not lie beyond the end of its year. -/
theorem ordinal_le_year (d : Date)
    : d.ordinal ≤ daysBeforeYear d.year + daysInYear d.year := by
  have after : d.month + 1 ≤ 13 := Nat.succ_le_succ d.month_le
  have ended := daysBeforeMonth_mono d.year d.month_pos after
  have whole := daysBeforeMonth_thirteen d.year
  have inside := d.day_le
  have counted := d.ordinal_eq
  omega

/-- Days in order differ first in the year, in the month or in the day. -/
theorem key_lt_cases {d e : Date} (lt : d.key < e.key)
    : d.year < e.year
      ∨ d.year = e.year ∧ d.month < e.month
      ∨ d.year = e.year ∧ d.month = e.month ∧ d.day < e.day := by
  have eshort := Nat.le_trans e.day_le (Timeline.daysInMonth_le e.year e.month)
  have eday := e.day_pos
  have emonth := e.month_le
  have epos := e.month_pos
  have dmonth := d.month_pos
  unfold key at lt
  rcases Nat.lt_trichotomy d.year e.year with year | year | year
  · exact Or.inl year
  · rcases Nat.lt_trichotomy d.month e.month with month | month | month
    · exact Or.inr (Or.inl ⟨year, month⟩)
    · have dday := d.day_pos
      exact Or.inr (Or.inr ⟨year, month, by omega⟩)
    · omega
  · omega

/-- Days in order have ordinals in order. The cases are the number in which they differ first.
-/
theorem ordinal_lt_of_key_lt {d e : Date} (lt : d.key < e.key)
    : d.ordinal < e.ordinal := by
  have hd := d.ordinal_eq
  have he := e.ordinal_eq
  have eday := e.day_pos
  obtain year | ⟨year, month⟩ | ⟨year, month, day⟩ := key_lt_cases lt
  · have ended := d.ordinal_le_year
    have begun := daysBeforeYear_mono d.year_pos year
    omega
  · have begun := daysBeforeMonth_mono d.year d.month_pos month
    have inside := d.day_le
    rw [← year] at he
    omega
  · rw [← year, ← month] at he
    omega

/-- Days with one key are one day. -/
theorem eq_of_key {d e : Date} (same : d.key = e.key)
    : d = e := by
  have dshort := Nat.le_trans d.day_le (Timeline.daysInMonth_le d.year d.month)
  have eshort := Nat.le_trans e.day_le (Timeline.daysInMonth_le e.year e.month)
  have dday := d.day_pos
  have eday := e.day_pos
  have dmonth := And.intro d.month_pos d.month_le
  have emonth := And.intro e.month_pos e.month_le
  unfold key at same
  apply eq_of_numbers <;> omega

theorem key_lt_iff {d e : Date} : d.key < e.key ↔ d.ordinal < e.ordinal := by
  constructor
  · exact ordinal_lt_of_key_lt
  · intro lt
    rcases Nat.lt_trichotomy d.key e.key with before | same | after
    · exact before
    · rw [eq_of_key same] at lt
      omega
    · have := ordinal_lt_of_key_lt after
      omega

/-- Days with one ordinal are one day. -/
theorem eq_of_ordinal {d e : Date} (same : d.ordinal = e.ordinal)
    : d = e := by
  have forth := key_lt_iff (d := d) (e := e)
  have back := key_lt_iff (d := e) (e := d)
  exact eq_of_key (by omega)

theorem notAfter_iff {d e : Date} : d.notAfter e = true ↔ d.ordinal ≤ e.ordinal := by
  have back := key_lt_iff (d := e) (e := d)
  simp only [notAfter, decide_eq_true_eq]
  omega

theorem dayOfYear_le (d : Date) : d.dayOfYear ≤ daysInYear d.year := by
  have inside := d.ordinal_le_year
  unfold ordinal at inside
  omega

/-- Days in order differ in the year first, and then in the day of the year. -/
theorem year_cases {d e : Date} (before : d.ordinal ≤ e.ordinal)
    : d.year < e.year ∨ d.year = e.year ∧ d.dayOfYear ≤ e.dayOfYear := by
  rcases Nat.lt_trichotomy d.year e.year with less | same | more
  · exact Or.inl less
  · unfold ordinal at before
    rw [same] at before
    exact Or.inr ⟨same, by omega⟩
  · have ended := e.ordinal_le_year
    have begun := daysBeforeYear_mono e.year_pos more
    have day := d.day_pos
    have counted := d.ordinal_eq
    omega

-----------------------------------------------------------------------------------------
-- Days that follow each other
-----------------------------------------------------------------------------------------

/-- The next day has the next ordinal. The cases are those of the calendar: inside a month, at
the end of a month and at the end of a year.
-/
theorem ordinal_next? {d e : Date} (next : d.next? = some e)
    : e.ordinal = d.ordinal + 1 := by
  have hd := d.ordinal_eq
  have he := e.ordinal_eq
  have inside := d.day_le
  have month_le := d.month_le
  unfold next? at next
  split at next
  case isTrue =>
      obtain ⟨year, month, day⟩ := ofNumbers?_eq_some_iff.mp next
      rw [year, month, day] at he
      omega
  case isFalse ended =>
      split at next
      case isTrue =>
          obtain ⟨year, month, day⟩ := ofNumbers?_eq_some_iff.mp next
          rw [year, month, day, daysBeforeMonth_succ _ d.month_pos] at he
          omega
      case isFalse last =>
          obtain ⟨year, month, day⟩ := ofNumbers?_eq_some_iff.mp next
          have december : d.month = 12 := by omega
          have whole := daysBeforeMonth_succ d.year d.month_pos
          rw [december, daysBeforeMonth_thirteen] at whole
          have none : daysBeforeMonth (d.year + 1) 1 = 0 := rfl
          rw [year, month, day, daysBeforeYear_succ d.year_pos, none] at he
          rw [december] at hd ended inside
          omega

/-- There is a next day, save on the last day of the calendar. -/
theorem exists_next? {d : Date} (lt : d.ordinal < lastOrdinal)
    : ∃ e, d.next? = some e := by
  have inside := d.day_le
  unfold next?
  split
  case isTrue more =>
      exact exists_ofNumbers? ⟨d.year_pos, d.year_le⟩ ⟨d.month_pos, d.month_le⟩
        ⟨by omega, by omega⟩
  case isFalse ended =>
      split
      case isTrue more =>
          exact exists_ofNumbers? ⟨d.year_pos, d.year_le⟩ ⟨by omega, by omega⟩
            ⟨Nat.le_refl 1, daysInMonth_pos _ _⟩
      case isFalse last =>
          have year : d.year ≠ 9999 := by
            intro year
            have december : d.month = 12 := by have := d.month_le; omega
            have day : d.day = 31 := by
              rw [year, december] at inside ended
              have length : daysInMonth 9999 12 = 31 := rfl
              omega
            have counted := d.ordinal_eq
            have lastDay : daysBeforeYear 9999 + daysBeforeMonth 9999 12 + 31 = lastOrdinal := by
              decide
            rw [year, december, day, lastDay] at counted
            omega
          have bound := d.year_le
          exact exists_ofNumbers? ⟨by omega, by omega⟩ ⟨Nat.le_refl 1, by omega⟩
            ⟨Nat.le_refl 1, daysInMonth_pos _ _⟩

/-- Days that are added are added to the ordinal. By induction on their number. -/
theorem ordinal_addDays? {d e : Date} {n : Nat} (added : d.addDays? n = some e)
    : e.ordinal = d.ordinal + n := by
  induction n generalizing d with
  | zero =>
      cases added
      rfl
  | succ n ih =>
      obtain ⟨next, isNext, rest⟩ := Option.bind_eq_some_iff.mp added
      have one := ordinal_next? isNext
      have others := ih rest
      omega

/-- Days can be added up to the last day of the calendar. By induction on their number. -/
theorem exists_addDays? {d : Date} {n : Nat} (le : d.ordinal + n ≤ lastOrdinal)
    : ∃ e, d.addDays? n = some e := by
  induction n generalizing d with
  | zero => exact ⟨d, rfl⟩
  | succ n ih =>
      obtain ⟨next, isNext⟩ := exists_next? (d := d) (by omega)
      have one := ordinal_next? isNext
      obtain ⟨e, added⟩ := ih (d := next) (by omega)
      exact ⟨e, Option.bind_eq_some_iff.mpr ⟨next, isNext, added⟩⟩

/-- A day of a year before the last has a whole year after it. -/
theorem ordinal_add_year {d : Date} (year : d.year ≤ 9998)
    : d.ordinal + 365 ≤ lastOrdinal := by
  have ended := d.ordinal_le_year
  have before : d.year + 1 ≤ 9999 := Nat.succ_le_succ year
  have begun := daysBeforeYear_mono d.year_pos before
  have last : daysBeforeYear 9999 + 365 = lastOrdinal := by decide
  omega

/-- No day lies beyond the last one. -/
theorem ordinal_le_last (d : Date)
    : d.ordinal ≤ lastOrdinal := by
  have ended := d.ordinal_le_year
  have begun := daysBeforeYear_mono d.year_pos (Nat.succ_le_succ d.year_le)
  have last : daysBeforeYear (Nat.succ 9999) = lastOrdinal := by decide
  omega

/-- Days up to a given one are of years up to its year. -/
theorem year_le_of_ordinal {d e : Date} {year : Nat} (le : d.ordinal ≤ e.ordinal)
    (bounded : e.year ≤ year)
    : d.year ≤ year := by
  have back := key_lt_iff (d := e) (e := d)
  have short := Nat.le_trans e.day_le (Timeline.daysInMonth_le e.year e.month)
  have month_le := e.month_le
  unfold key at back
  omega

/-- Days are added as the ordinal counts them. -/
theorem addDays?_eq_some_iff {d e : Date} {n : Nat}
    : d.addDays? n = some e ↔ d.DaysAfter n e := by
  constructor
  · exact ordinal_addDays?
  · intro after
    have within := e.ordinal_le_last
    unfold DaysAfter at after
    obtain ⟨other, added⟩ := exists_addDays? (d := d) (n := n) (by omega)
    have counted := ordinal_addDays? added
    rw [added, eq_of_ordinal (counted.trans after.symm)]

-----------------------------------------------------------------------------------------
-- Months that follow each other
-----------------------------------------------------------------------------------------

/-- Months are added as they are numbered, and the day is cut to the length of the month. -/
theorem addMonths?_eq_some_iff {d e : Date} {n : Nat}
    : d.addMonths? n = some e ↔ d.MonthsAfter n e := by
  have month := e.month_pos
  have month_le := e.month_le
  have dmonth := d.month_pos
  simp only [addMonths?, ofNumbers?_eq_some_iff, MonthsAfter, monthNumber]
  constructor
  · rintro ⟨year, month, day⟩
    rw [← year, ← month] at day
    exact ⟨by omega, day⟩
  · rintro ⟨number, day⟩
    have year : e.year = d.year + (d.month - 1 + n) / 12 := by omega
    have month : e.month = (d.month - 1 + n) % 12 + 1 := by omega
    rw [← year, ← month]
    exact ⟨rfl, rfl, day⟩

/-- Up to a year can be added to a month of a year before the last. -/
theorem exists_addMonths? {d e : Date} {n more : Nat} (after : d.MonthsAfter n e)
    (year : e.year ≤ 9998) (le : more ≤ 12)
    : ∃ later, d.addMonths? (n + more) = some later := by
  have number := after.1
  have month := e.month_pos
  have month_le := e.month_le
  have dmonth := d.month_pos
  have pos := d.year_pos
  unfold monthNumber at number
  have length := daysInMonth_pos (d.year + (d.month - 1 + (n + more)) / 12)
    ((d.month - 1 + (n + more)) % 12 + 1)
  have day := d.day_pos
  exact exists_ofNumbers? ⟨by omega, by omega⟩ ⟨by omega, by omega⟩ ⟨by omega, by omega⟩

/-- A day of a later month comes later. -/
theorem ordinal_lt_of_monthNumber {d e : Date} (lt : d.monthNumber < e.monthNumber)
    : d.ordinal < e.ordinal := by
  have short := Nat.le_trans d.day_le (Timeline.daysInMonth_le d.year d.month)
  have pos := d.day_pos
  apply ordinal_lt_of_key_lt
  unfold monthNumber at lt
  unfold key
  omega

end Date

-----------------------------------------------------------------------------------------
-- The axis of years
-----------------------------------------------------------------------------------------

/-- Days have places on the axis of years in their order. From the place of a day a window, which
may be infinite, and the margin at its end lead back.
-/
class Scalar.AxisRules (α : Type) [Scalar α] : Prop where
  le_trans {x y z : α} (first : le x y = true) (second : le y z = true) : le x z = true
  yearFraction_le {d e : Date} (before : d.ordinal ≤ e.ordinal)
    : le (d.yearFraction : α) e.yearFraction = true
  back_le (d : Date) {window : α} (nonneg : le zero window = true)
    : le (d.yearFraction - window - ofDecimal false 1 (-9)) d.yearFraction = true

-----------------------------------------------------------------------------------------
-- Successions of days
-----------------------------------------------------------------------------------------

/-- Days reached in steps from a first one: one day for each number of steps, later for more of
them, and a further one while the last year is not reached.
-/
structure Succession (start : Date) (reaches : Nat → Date → Prop) : Prop where
  first : reaches 0 start
  unique : ∀ {i d e}, reaches i d → reaches i e → d = e
  later : ∀ {i j d e}, i < j → reaches i d → reaches j e → d.ordinal < e.ordinal
  more : ∀ {i d}, reaches i d → d.year ≤ 9998 → ∃ e, reaches (i + 1) e

/-- The days reached in so many steps or more, up to the end, in their order. -/
def ListsFrom (reaches : Nat → Date → Prop) (finish : Date) (steps : Nat) (dates : List Date)
    : Prop :=
  ∀ i d, dates[i]? = some d ↔ reaches (steps + i) d ∧ d.ordinal ≤ finish.ordinal

namespace Succession

variable {start finish : Date} {reaches : Nat → Date → Prop}

/-- Steps of a number of days are a succession. -/
theorem days (start : Date) {count : Nat} (pos : 0 < count) (le : count ≤ 365)
    : Succession start fun i => start.DaysAfter (count * i) where
  first := by simp [Date.DaysAfter]
  unique := fun one other => Date.eq_of_ordinal (one.trans other.symm)
  later := by
    intro i j d e lt one other
    have grown := Nat.mul_lt_mul_of_pos_left lt pos
    unfold Date.DaysAfter at one other
    omega
  more := by
    intro i d reached year
    have room := Date.ordinal_add_year year
    obtain ⟨e, added⟩ := Date.exists_addDays? (d := d) (n := count) (by omega)
    have counted := Date.ordinal_addDays? added
    refine ⟨e, ?_⟩
    unfold Date.DaysAfter at reached ⊢
    rw [counted, reached, Nat.mul_succ, Nat.add_assoc]

/-- Steps of a number of months are a succession. -/
theorem months (start : Date) {count : Nat} (pos : 0 < count) (le : count ≤ 12)
    : Succession start fun i => start.MonthsAfter (count * i) where
  first := ⟨by simp, (Nat.min_eq_left start.day_le).symm⟩
  unique := by
    intro i d e one other
    rw [← Date.addMonths?_eq_some_iff] at one other
    exact Option.some.inj (one.symm.trans other)
  later := by
    intro i j d e lt one other
    have grown := Nat.mul_lt_mul_of_pos_left lt pos
    apply Date.ordinal_lt_of_monthNumber
    rw [one.1, other.1]
    omega
  more := by
    intro i d reached year
    obtain ⟨e, added⟩ := Date.exists_addMonths? reached year le
    exact ⟨e, Date.addMonths?_eq_some_iff.mp added⟩

/-- Behind a day beyond the end nothing is listed. -/
theorem lists_nil (steps : Succession start reaches) {i : Nat} {current : Date}
    (reached : reaches i current) (beyond : finish.ordinal < current.ordinal)
    : ListsFrom reaches finish i [] := by
  intro j d
  simp only [List.getElem?_nil, reduceCtorEq, false_iff, not_and, Nat.not_le]
  intro other
  rcases Nat.eq_zero_or_pos j with rfl | pos
  · rw [← steps.unique reached other]
    exact beyond
  · exact Nat.lt_trans beyond (steps.later (by omega) reached other)

/-- A day up to the end is listed before those behind it. -/
theorem lists_cons (steps : Succession start reaches) {i : Nat} {current : Date}
    {dates : List Date} (reached : reaches i current) (within : current.ordinal ≤ finish.ordinal)
    (rest : ListsFrom reaches finish (i + 1) dates)
    : ListsFrom reaches finish i (current :: dates) := by
  intro j d
  cases j with
  | zero =>
      simp only [List.getElem?_cons_zero, Option.some.injEq, Nat.add_zero]
      constructor
      · rintro rfl
        exact ⟨reached, within⟩
      · rintro ⟨other, _⟩
        exact steps.unique reached other
  | succ j =>
      rw [List.getElem?_cons_succ, rest j d, Nat.add_right_comm, Nat.add_assoc i j 1]

/-- What lists the days from the start on is strictly increasing. -/
theorem increasing (steps : Succession start reaches) {dates : List Date} {i : Nat}
    (lists : ListsFrom reaches finish i dates)
    : dates.Pairwise fun d e => d.ordinal < e.ordinal := by
  rw [List.pairwise_iff_getElem]
  intro j k hj hk lt
  have one := ((lists j dates[j]).mp (List.getElem?_eq_getElem hj)).1
  have other := ((lists k dates[k]).mp (List.getElem?_eq_getElem hk)).1
  exact steps.later (by omega) one other

/-- One step beyond the list is a day after the end, when the end is before the last year. -/
theorem exists_past (steps : Succession start reaches) {dates : List Date}
    (lists : ListsFrom reaches finish 0 dates) (bounded : finish.year ≤ 9998)
    : ∃ past, reaches dates.length past ∧ finish.ordinal < past.ordinal := by
  have reached : ∃ past, reaches dates.length past := by
    cases length : dates.length with
    | zero => exact ⟨start, steps.first⟩
    | succ n =>
        obtain ⟨last, within⟩ := (lists n dates[n]).mp (List.getElem?_eq_getElem (by omega))
        rw [Nat.zero_add] at last
        exact steps.more last (Date.year_le_of_ordinal within bounded)
  obtain ⟨past, reached⟩ := reached
  refine ⟨past, reached, Nat.lt_of_not_le fun within => ?_⟩
  have listed := (lists dates.length past).mpr ⟨(Nat.zero_add _).symm ▸ reached, within⟩
  rw [List.getElem?_eq_none (Nat.le_refl _)] at listed
  cases listed

end Succession

-----------------------------------------------------------------------------------------
-- The two loops
-----------------------------------------------------------------------------------------

namespace Timeline

variable {start finish : Date}

/-- The loop over days lists them from the current one on. By induction along the loop. -/
theorem daysFrom_lists {count : Nat} (le : count + 1 ≤ 365) (bounded : finish.year ≤ 9998)
    {i : Nat} {current : Date} (reached : start.DaysAfter ((count + 1) * i) current)
    : ∃ dates, daysFrom count finish current = .ok dates
        ∧ ListsFrom (fun i => start.DaysAfter ((count + 1) * i)) finish i dates := by
  have steps := Succession.days start (Nat.succ_pos count) le
  fun_induction daysFrom count finish current generalizing i with
  | case1 current within stuck =>
      have year := Date.year_le_of_ordinal (Date.notAfter_iff.mp within) bounded
      have room := Date.ordinal_add_year year
      obtain ⟨next, added⟩ := Date.exists_addDays? (d := current) (n := count + 1) (by omega)
      rw [stuck] at added
      cases added
  | case2 current within next added ih =>
      have counted := Date.ordinal_addDays? added
      have onward : start.DaysAfter ((count + 1) * (i + 1)) next := by
        unfold Date.DaysAfter at reached ⊢
        rw [counted, reached, Nat.mul_succ, Nat.add_assoc]
      obtain ⟨dates, listed, rest⟩ := ih onward
      exact ⟨current :: dates, by rw [listed]; rfl,
        steps.lists_cons reached (Date.notAfter_iff.mp within) rest⟩
  | case3 current beyond =>
      rw [Date.notAfter_iff, Nat.not_le] at beyond
      exact ⟨[], rfl, steps.lists_nil reached beyond⟩

/-- The loop over months lists the days from the current step on. By induction along the loop.
-/
theorem monthsFrom_lists {count : Nat} (le : count + 1 ≤ 12) (bounded : finish.year ≤ 9998)
    {i : Nat} {current : Date} (reached : start.MonthsAfter ((count + 1) * i) current)
    : ∃ dates, monthsFrom count start finish i = .ok dates
        ∧ ListsFrom (fun i => start.MonthsAfter ((count + 1) * i)) finish i dates := by
  have steps := Succession.months start (Nat.succ_pos count) le
  fun_induction monthsFrom count start finish i generalizing current with
  | case1 i stuck =>
      rw [Nat.mul_comm, Date.addMonths?_eq_some_iff.mpr reached] at stuck
      cases stuck
  | case2 i found added within ih =>
      rw [Nat.mul_comm, Date.addMonths?_eq_some_iff] at added
      have year := Date.year_le_of_ordinal (Date.notAfter_iff.mp within) bounded
      obtain ⟨next, onward⟩ := steps.more added year
      obtain ⟨dates, listed, rest⟩ := ih onward
      exact ⟨found :: dates, by rw [listed]; rfl,
        steps.lists_cons added (Date.notAfter_iff.mp within) rest⟩
  | case3 i found added beyond =>
      rw [Nat.mul_comm, Date.addMonths?_eq_some_iff] at added
      rw [Date.notAfter_iff, Nat.not_le] at beyond
      exact ⟨[], rfl, steps.lists_nil added beyond⟩

end Timeline

-----------------------------------------------------------------------------------------
-- Timelines
-----------------------------------------------------------------------------------------

theorem Resolution.succession (resolution : Resolution) (start : Date)
    : Succession start fun i d => resolution.Reaches start i d := by
  cases resolution with
  | yearly => exact Succession.months start (by decide) (by decide)
  | quarterly => exact Succession.months start (by decide) (by decide)
  | monthly =>
      have single := Succession.months start (Nat.succ_pos 0) (by decide)
      simpa only [Reaches, Nat.one_mul] using single
  | weekly => exact Succession.days start (by decide) (by decide)
  | daily =>
      have single := Succession.days start (Nat.succ_pos 0) (by decide)
      simpa only [Reaches, Nat.one_mul] using single

/-- A timeline lists what its resolution reaches from the start on. The cases are the
resolutions, each of which is one of the two loops.
-/
theorem timeline_lists {timeframe : Option Timeframe} {resolution : Option Resolution}
    {start finish : Date}
    (starts : (timeframe.getD Timeframe.standard).start.start = .ok start)
    (finishes : (timeframe.getD Timeframe.standard).finish.start = .ok finish)
    (bounded : finish.year ≤ 9998)
    : ∃ dates, timeline timeframe resolution = .ok dates
        ∧ ListsFrom (fun i d => (resolution.getD .yearly).Reaches start i d) finish 0 dates := by
  simp only [timeline, starts, finishes, bind, Except.bind]
  generalize resolution.getD .yearly = resolution
  have first := (resolution.succession start).first
  cases resolution with
  | yearly => exact Timeline.monthsFrom_lists (by decide) bounded first
  | quarterly => exact Timeline.monthsFrom_lists (by decide) bounded first
  | monthly =>
      have single : start.MonthsAfter ((0 + 1) * 0) start := first
      simpa only [Resolution.Reaches, Resolution.step, Nat.zero_add, Nat.one_mul]
        using Timeline.monthsFrom_lists (by decide) bounded single
  | weekly => exact Timeline.daysFrom_lists (by decide) bounded first
  | daily =>
      have single : start.DaysAfter ((0 + 1) * 0) start := first
      simpa only [Resolution.Reaches, Resolution.step, Nat.zero_add, Nat.one_mul]
        using Timeline.daysFrom_lists (by decide) bounded single

/-- The time axis is exact: the days of a timeline are those that lie a whole number of steps
after the start, up to the end. They begin with the start and increase strictly, and one more
step passes the end. Witness: `timeline_exact_months`.
-/
theorem timeline_exact {timeframe : Option Timeframe} {resolution : Option Resolution}
    {start finish : Date}
    (starts : (timeframe.getD Timeframe.standard).start.start = .ok start)
    (finishes : (timeframe.getD Timeframe.standard).finish.start = .ok finish)
    (ordered : start.ordinal ≤ finish.ordinal) (bounded : finish.year ≤ 9998)
    : ∃ dates past, timeline timeframe resolution = .ok dates
        ∧ (∀ i d, dates[i]? = some d
            ↔ (resolution.getD .yearly).Reaches start i d ∧ d.ordinal ≤ finish.ordinal)
        ∧ dates.head? = some start
        ∧ dates.Pairwise (fun d e => d.ordinal < e.ordinal)
        ∧ (resolution.getD .yearly).Reaches start dates.length past
        ∧ finish.ordinal < past.ordinal := by
  have steps := (resolution.getD .yearly).succession start
  obtain ⟨dates, computed, lists⟩ := timeline_lists starts finishes bounded
  obtain ⟨past, reached, beyond⟩ := steps.exists_past lists bounded
  have head := (lists 0 start).mpr ⟨steps.first, ordered⟩
  refine ⟨dates, past, computed, ?_, ?_, steps.increasing lists, reached, beyond⟩
  · intro i d
    rw [lists i d, Nat.zero_add]
  · rw [List.head?_eq_getElem?, head]

/-- The last day of October 2023. -/
def octoberEnd : Date :=
  ⟨2023, 10, 31, by decide, by decide, by decide, by decide, by decide, by decide⟩

/-- The last day of March 2024. -/
def marchEnd : Date :=
  ⟨2024, 3, 31, by decide, by decide, by decide, by decide, by decide, by decide⟩

/-- A winter with months of 31, 30 and 29 days. -/
def winterMonths : Timeframe :=
  ⟨⟨2023, some 10, some 31⟩, ⟨2024, some 3, some 31⟩⟩

theorem timeline_exact_months
    : ∃ dates past, timeline (some winterMonths) (some .monthly) = .ok dates
        ∧ (∀ i d, dates[i]? = some d
            ↔ Resolution.monthly.Reaches octoberEnd i d ∧ d.ordinal ≤ marchEnd.ordinal)
        ∧ dates.head? = some octoberEnd
        ∧ dates.Pairwise (fun d e => d.ordinal < e.ordinal)
        ∧ Resolution.monthly.Reaches octoberEnd dates.length past
        ∧ marchEnd.ordinal < past.ordinal :=
  @timeline_exact (some winterMonths) (some .monthly) octoberEnd marchEnd rfl rfl (by decide)
    (by decide)

end Prognosis
