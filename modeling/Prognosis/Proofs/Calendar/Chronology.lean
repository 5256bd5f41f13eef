import Prognosis.Grammar.Value
import Prognosis.Proofs.Calendar.Timeline
import Prognosis.Proofs.Check.Reports
import Prognosis.Proofs.Scalar.Exact
import Prognosis.Proofs.Steps
import Prognosis.Proofs.Token.Word

/-! Written dates are in one order, whether they are compared as they are written, by the days that
they start with, or by places on the axis of years. A scenario that is found to keep this order has
days to be computed at, and anchors whose times grow.
-/

namespace Prognosis

-----------------------------------------------------------------------------------------
-- Days and years
-----------------------------------------------------------------------------------------

/-- The calendar has the year. -/
def IsCalendarYear (year : Int) : Prop :=
  1 ≤ year ∧ year ≤ 9999

theorem isSome_ofNumbers? (year : Nat)
    : (Date.ofNumbers? year 1 1).isSome = true ↔ 1 ≤ year ∧ year ≤ 9999 := by
  unfold Date.ofNumbers?
  by_cases inside : 1 ≤ year ∧ year ≤ 9999 <;> simp [inside, daysInMonth]

/-- The first day of a year is in the calendar exactly when the year is. -/
theorem isOk_resolve (year : Int)
    : (PartialDate.resolve year 1 1).isOk = true ↔ IsCalendarYear year := by
  have known := isSome_ofNumbers? year.toNat
  unfold PartialDate.resolve IsCalendarYear
  cases found : Date.ofNumbers? year.toNat 1 1 with
  | none =>
      rw [found] at known
      simp only [Option.isSome_none, Bool.false_eq_true, false_iff] at known
      constructor
      · intro ok
        simp only [Int.toNat_one, found] at ok
        split at ok <;> cases ok
      · intro inside
        omega
  | some date =>
      rw [found] at known
      simp only [Option.isSome_some, true_iff] at known
      have countable : PartialDate.countable year = true := by
        simp only [PartialDate.countable, Bool.and_eq_true, decide_eq_true_eq]
        omega
      have one : PartialDate.countable 1 = true := rfl
      have positive : 0 ≤ year := by omega
      simp only [countable, one, Int.toNat_one, found, positive, Bool.not_true, Bool.or_self,
        Bool.false_eq_true, if_false, Int.zero_le_ofNat, decide_true, Bool.and_self, if_true]
      exact ⟨fun _ => by omega, fun _ => rfl⟩

namespace Date

/-- The days of a year are counted from one to its length. -/
theorem dayOfYear_bounds (d : Date)
    : 1 ≤ d.dayOfYear ∧ d.dayOfYear ≤ daysInYear d.year := by
  have whole := d.ordinal_eq
  have year := d.ordinal_le_year
  have pos := d.day_pos
  unfold ordinal at whole year
  omega

/-- A day lies in its year on the axis of years. -/
theorem yearFraction_bounds (d : Date)
    : (d.year : ℝ) ≤ d.yearFraction ∧ (d.yearFraction : ℝ) < d.year + 1 := by
  have bounds := d.dayOfYear_bounds
  have length : (0 : ℝ) < daysInYear d.year := by exact_mod_cast (by omega : 0 < daysInYear d.year)
  have less : ((d.dayOfYear - 1 : Nat) : ℝ) < daysInYear d.year := by
    exact_mod_cast (by omega : d.dayOfYear - 1 < daysInYear d.year)
  have share := (div_lt_one length).mpr less
  have nonneg := div_nonneg (Nat.cast_nonneg (d.dayOfYear - 1)) length.le
  simp only [yearFraction, Scalar.ofNat_real]
  constructor <;> linarith

/-- Days in order are in order on the axis of years. The cases are days of different years and
those of one year.
-/
theorem yearFraction_lt_of_ordinal {d e : Date} (less : d.ordinal < e.ordinal)
    : (d.yearFraction : ℝ) < e.yearFraction := by
  have lower := e.yearFraction_bounds.1
  have upper := d.yearFraction_bounds.2
  rcases Nat.lt_trichotomy d.year e.year with before | same | after
  · have apart : (d.year : ℝ) + 1 ≤ e.year := by exact_mod_cast before
    linarith
  · have bounds := d.dayOfYear_bounds
    have length : (0 : ℝ) < daysInYear d.year := by
      exact_mod_cast (by omega : 0 < daysInYear d.year)
    have days : ((d.dayOfYear - 1 : Nat) : ℝ) < (e.dayOfYear - 1 : Nat) := by
      unfold ordinal at less
      rw [same] at less
      exact_mod_cast (by omega : d.dayOfYear - 1 < e.dayOfYear - 1)
    simp only [yearFraction, Scalar.ofNat_real, ← same]
    gcongr
  · have begun := daysBeforeYear_mono e.year_pos after
    have ended := e.ordinal_le_year
    have first := d.dayOfYear_bounds
    unfold ordinal at less ended
    omega

theorem yearFraction_lt_iff {d e : Date}
    : (d.yearFraction : ℝ) < e.yearFraction ↔ d.ordinal < e.ordinal := by
  constructor
  · intro less
    by_contra not
    rcases Nat.lt_or_eq_of_le (Nat.le_of_not_lt not) with after | same
    · exact less.not_gt (yearFraction_lt_of_ordinal after)
    · rw [eq_of_ordinal same] at less
      exact lt_irrefl _ less
  · exact yearFraction_lt_of_ordinal

end Date

-----------------------------------------------------------------------------------------
-- Written dates
-----------------------------------------------------------------------------------------

namespace PartialDate

theorem numbers_of_resolve {year month day : Int} {a : Date}
    (found : resolve year month day = .ok a)
    : year = a.year ∧ month = a.month ∧ day = a.day := by
  unfold resolve at found
  split at found
  case isTrue => cases found
  case isFalse =>
    split at found
    case h_2 => cases found
    case h_1 date known =>
      split at found
      case isFalse => cases found
      case isTrue positive =>
        cases found
        have same := Date.ofNumbers?_eq_some_iff.mp known
        simp only [Bool.and_eq_true, decide_eq_true_eq] at positive
        omega

/-- The numbers that a written date is compared by are those of its first day. -/
theorem sortKey_of_start {d : PartialDate} {a : Date} (starts : d.start = .ok a)
    : d.sortKey = ((a.year : Int), (a.month : Int), (a.day : Int)) := by
  obtain ⟨year, month, day⟩ := numbers_of_resolve starts
  rw [sortKey, year, month, day]

/-- Written dates that start in the calendar are in the order of their first days. -/
theorem before_iff {d e : PartialDate} {a b : Date} (starts : d.start = .ok a)
    (others : e.start = .ok b)
    : d.before e = true ↔ a.ordinal < b.ordinal := by
  have first := a.day_pos
  have short := Nat.le_trans a.day_le (Timeline.daysInMonth_le a.year a.month)
  have second := b.day_pos
  have long := Nat.le_trans b.day_le (Timeline.daysInMonth_le b.year b.month)
  have months := And.intro a.month_pos a.month_le
  have others' := And.intro b.month_pos b.month_le
  rw [← Date.key_lt_iff, before, sortKey_of_start starts, sortKey_of_start others]
  simp only [Bool.or_eq_true, Bool.and_eq_true, decide_eq_true_eq, beq_iff_eq, Date.key]
  omega

end PartialDate

-----------------------------------------------------------------------------------------
-- Dates that are read
-----------------------------------------------------------------------------------------

section Reading

variable {α : Type} [Scalar α]

theorem Token.readNumber_not_date (cs : List Char) (d : PartialDate)
    : (readNumber cs : Reading α).kind ≠ some (.date d) := by
  unfold readNumber
  dsimp only
  repeat' split
  all_goals simp [Reading.token]

/-- A date that is read from digits is a year, or starts in the calendar. -/
theorem Token.date_of_readDigits {cs : List Char} {d : PartialDate}
    (is : (readDigits cs : Reading α).kind = some (.date d))
    : (∃ year, d = .ofYear year) ∨ ∃ a, d.start = .ok a := by
  unfold readDigits at is
  split at is
  case h_2 => exact absurd is (readNumber_not_date cs d)
  case h_1 date _ =>
    split at is
    case h_1 a starts =>
      cases is
      exact Or.inr ⟨a, starts⟩
    case h_2 =>
      cases is
      exact Or.inl ⟨_, rfl⟩

/-- So it is with every date that is read, as only digits make one. -/
theorem Token.date_of_read {c : Char} {cs : List Char} {d : PartialDate}
    (is : (read c cs : Reading α).kind = some (.date d))
    : (∃ year, d = .ofYear year) ∨ ∃ a, d.start = .ok a := by
  unfold read at is
  split at is
  case isTrue => cases is
  case isFalse =>
    split at is
    case isTrue => cases is
    case isFalse =>
      split at is
      case isTrue => split at is <;> cases is
      case isFalse =>
        split at is
        case isTrue => exact date_of_readDigits is
        case isFalse =>
          split at is
          case isTrue => cases is
          case isFalse =>
            split at is
            case isTrue => cases is
            case isFalse => split at is <;> cases is

/-- The date is read somewhere in a text. -/
def PartialDate.IsRead (α : Type) [Scalar α] (d : PartialDate) : Prop :=
  ∃ (source : String) (ts : List (Token α)) (found : Grammar.Parsed α PartialDate ts),
    ts <:+ (TokenText.scan source).tokens ∧ Grammar.date ts = .ok found ∧ found.value = d

/-- A date that is read is a year, or starts in the calendar. -/
theorem PartialDate.IsRead.cases {d : PartialDate} (isRead : d.IsRead α)
    : (∃ year, d = .ofYear year) ∨ ∃ a, d.start = .ok a := by
  obtain ⟨source, ts, found, suffix, is, rfl⟩ := isRead
  match ts, found, suffix, is with
  | t :: rest, found, suffix, is =>
      unfold Grammar.date at is
      dsimp only at is
      split at is
      case h_1 value kind =>
        cases is
        obtain ⟨c, cs, read, -⟩ :=
          Token.exists_read_of_scan (suffix.subset List.mem_cons_self)
        exact Token.date_of_read (read.trans (congrArg some kind))
      case h_2 =>
        split at is
        case h_1 => cases is
        case h_2 year _ =>
          split at is
          case isTrue =>
            cases is
            exact Or.inl ⟨year, rfl⟩
          case isFalse => cases is
      case h_3 => cases is

/-- A written date as the grammar reads it, of a year that the calendar has. -/
structure PartialDate.IsUsual (α : Type) [Scalar α] (d : PartialDate) : Prop where
  read : d.IsRead α
  year : IsCalendarYear d.year

/-- Its first day is in the calendar. -/
theorem PartialDate.IsUsual.starts {d : PartialDate} (usual : d.IsUsual α)
    : ∃ a, d.start = .ok a := by
  rcases usual.read.cases with ⟨year, rfl⟩ | starts
  · have ok := (isOk_resolve year).mpr usual.year
    cases found : PartialDate.resolve year 1 1 with
    | ok a => exact ⟨a, found⟩
    | error fault =>
        rw [found] at ok
        cases ok
  · exact starts

end Reading

-----------------------------------------------------------------------------------------
-- Places on the axis of years
-----------------------------------------------------------------------------------------

/-- Place of a written date on the axis of years, as an exact number. -/
noncomputable def PartialDate.place (d : PartialDate) : ℝ :=
  match d.start with
  | .ok a => a.yearFraction
  | .error _ => 0

section Places

variable {α : Type} [Scalar α] {d e : PartialDate}

theorem PartialDate.IsUsual.yearFraction_eq (usual : d.IsUsual α)
    : (d.yearFraction : Except Fault ℝ) = .ok d.place := by
  obtain ⟨a, starts⟩ := usual.starts
  simp only [yearFraction, place, starts]
  rfl

theorem PartialDate.IsUsual.before_iff_place (first : d.IsUsual α) (second : e.IsUsual α)
    : d.before e = true ↔ d.place < e.place := by
  obtain ⟨a, starts⟩ := first.starts
  obtain ⟨b, others⟩ := second.starts
  simp only [place, starts, others]
  rw [before_iff starts others, Date.yearFraction_lt_iff]

end Places

-----------------------------------------------------------------------------------------
-- Findings about order
-----------------------------------------------------------------------------------------

section Findings

variable {α : Type}

/-- No finding says that dates are out of order. -/
def KeepsOrder (findings : List (Located (Finding α))) : Prop :=
  ∀ l ∈ findings, l.finding.code ≠ .error 8

theorem KeepsOrder.subset {some all : List (Located (Finding α))} (keeps : KeepsOrder all)
    (subset : some ⊆ all)
    : KeepsOrder some :=
  fun l member => keeps l (subset member)

variable [Scalar α]

omit [Scalar α] in
/-- Anchors of which none is found to be out of order come one before the other. By induction along
the anchors, each of which is compared with the one before.
-/
theorem isChain_of_checkAnchors {symbols : Symbols α} {owner : Owner} {span : Span}
    {previous : Option PartialDate} {anchors : List (Anchor α)}
    (keeps : KeepsOrder (Check.checkAnchors symbols owner span previous anchors))
    : (∀ d ∈ previous, ∀ a ∈ anchors.head?, d.before a.date = true)
        ∧ anchors.IsChain fun a b => a.date.before b.date = true := by
  induction anchors generalizing previous with
  | nil => exact ⟨by simp, .nil⟩
  | cons a rest ih =>
      have behind := ih (keeps.subset (List.subset_append_right _ _))
      constructor
      · intro d before b head
        cases head
        by_contra late
        refine keeps ⟨.anchorOrder owner a.date d, a.value.span.or (some span)⟩ ?_ rfl
        refine List.mem_append_left _ (List.mem_append_left _ (List.mem_map.mpr ⟨d, ?_, rfl⟩))
        exact List.mem_filter.mpr ⟨Option.mem_toList.mpr before, by simpa using late⟩
      · cases rest with
        | nil => exact .singleton a
        | cons b rest => exact .cons_cons (behind.1 a.date rfl b rfl) behind.2

variable {s : Scenario α}

/-- The anchors of a variable in use have times that grow. -/
theorem times_increase {v : Variable α} (usual : ∀ a ∈ v.anchors, a.date.IsUsual α)
    (inUse : s.InUse (.varying v)) (keeps : KeepsOrder s.check.findings)
    : ∃ times : List ℝ,
        (v.anchors.mapM fun a => a.date.yearFraction) = .ok times
          ∧ times.Pairwise (· < ·) := by
  obtain ⟨index, nested, checked⟩ := inUse.exists_checkQuantity_subset
  have own : KeepsOrder (Check.checkAnchors (Symbols.ofScenario s) (.quantity .varying v.name)
      v.span none v.anchors) :=
    keeps.subset fun l found => checked (List.mem_append_left _
      (List.mem_append_left _ (List.mem_append_right _ found)))
  have places : List.Forall₂ (fun a x => a.date.yearFraction = .ok x) v.anchors
      (v.anchors.map (·.date.place)) :=
    List.forall₂_map_right_iff.mpr (List.forall₂_same.mpr fun a listed =>
      (usual a listed).yearFraction_eq)
  refine ⟨_, mapM_eq_ok_iff.mpr places, List.isChain_iff_pairwise.mp ?_⟩
  rw [List.isChain_map]
  exact (isChain_of_checkAnchors own).2.imp_of_mem_imp fun a b first second before =>
    ((usual a first).before_iff_place (usual b second)).mp before

/-- The timeframe of a scenario starts before it ends. -/
theorem timeframe_ordered (keeps : KeepsOrder s.check.findings)
    : ∀ t ∈ s.metadata.timeframe, t.start.before t.finish = true := by
  intro t given
  by_contra not
  have late : t.start.before t.finish = false := by simpa using not
  have found : Check.report s.span (.timeframeOrder t.start t.finish) ∈ s.check.findings := by
    refine s.findings_subset_check (List.mem_append_left _ (List.mem_append_left _
      (List.mem_append_left _ ?_)))
    have timeframe : s.metadata.timeframe = some t := given
    simp [timeframe, Check.reportIf, late]
  exact keeps _ found rfl

/-- The days of a scenario begin with the start of its timeframe. -/
theorem timeline_nonempty
    (usual
      : ∀ t ∈ s.metadata.timeframe,
          t.start.IsUsual α ∧ t.finish.IsUsual α ∧ t.finish.year ≤ 9998)
    (keeps : KeepsOrder s.check.findings)
    : ∃ days, timeline s.metadata.timeframe s.metadata.resolution = .ok days ∧ days ≠ [] := by
  obtain ⟨a, b, starts, finishes, ordered, last⟩
      : ∃ a b,
          (s.metadata.timeframe.getD Timeframe.standard).start.start = .ok a
            ∧ (s.metadata.timeframe.getD Timeframe.standard).finish.start = .ok b
            ∧ a.ordinal ≤ b.ordinal ∧ b.year ≤ 9998 := by
    cases given : s.metadata.timeframe with
    | none => exact ⟨_, _, rfl, rfl, by decide, by decide⟩
    | some t =>
        obtain ⟨first, second, bound⟩ := usual t given
        obtain ⟨a, starts⟩ := first.starts
        obtain ⟨b, finishes⟩ := second.starts
        have less := (PartialDate.before_iff starts finishes).mp (timeframe_ordered keeps t given)
        have year := (PartialDate.numbers_of_resolve finishes).1
        exact ⟨a, b, starts, finishes, less.le, by omega⟩
  obtain ⟨days, computed, lists⟩ := timeline_lists starts finishes last
  have first := (lists 0 a).mpr ⟨((s.metadata.resolution.getD .yearly).succession a).first, ordered⟩
  refine ⟨days, computed, ?_⟩
  rintro rfl
  cases first

end Findings

/-- Chronology is one order. Written dates that are read, of years that the calendar has, are in one
order as they are written, by the days that they start with and by places on the axis of years.
Where no finding says that dates are out of order, a scenario has days to be computed at, and the
anchors of its variables have times that grow. Witness: `chronology_is_one_order_leapYear`.
-/
theorem chronology_is_one_order (α : Type) [Scalar α]
    : (∀ d e : PartialDate, d.IsUsual α → e.IsUsual α
        → ∃ a b,
            d.start = .ok a ∧ e.start = .ok b
              ∧ (d.before e = true ↔ a.ordinal < b.ordinal)
              ∧ (d.before e = true ↔ (a.yearFraction : ℝ) < b.yearFraction))
      ∧ ∀ s : Scenario α, KeepsOrder s.check.findings
        → ((∀ t ∈ s.metadata.timeframe,
              t.start.IsUsual α ∧ t.finish.IsUsual α ∧ t.finish.year ≤ 9998)
            → ∃ days,
                timeline s.metadata.timeframe s.metadata.resolution = .ok days ∧ days ≠ [])
          ∧ ∀ v, s.InUse (.varying v) → (∀ a ∈ v.anchors, a.date.IsUsual α)
            → ∃ times : List ℝ,
                (v.anchors.mapM fun a => a.date.yearFraction) = .ok times
                  ∧ times.Pairwise (· < ·) := by
  constructor
  · intro d e first second
    obtain ⟨a, starts⟩ := first.starts
    obtain ⟨b, others⟩ := second.starts
    have order := PartialDate.before_iff starts others
    exact ⟨a, b, starts, others, order, order.trans Date.yearFraction_lt_iff.symm⟩
  · intro s keeps
    exact ⟨fun usual => timeline_nonempty usual keeps,
      fun v inUse usual => times_increase usual inUse keeps⟩

namespace LeapYear

/-- The last day of a February in a leap year. -/
def leapDay : PartialDate :=
  ⟨2024, some 2, some 29⟩

/-- A variable with anchors on that day and in the next year. -/
def level : Variable Int := {
  name := "level"
  anchors := [⟨leapDay, .number 1 none⟩, ⟨.ofYear 2025, .number 2 none⟩]
  dependsOn := []
  model := none
  uncertainty := none
  interpolation := none
  description := none
  unit := none
  label := none
  icon := none
  color := none
  span := ⟨2, 1⟩
}

/-- A scenario of this variable from that day to the next year. -/
def scenario : Scenario Int := {
  name := "leap"
  metadata := { Metadata.empty with timeframe := some ⟨leapDay, .ofYear 2025⟩ }
  declarations := [.quantity (.varying level)]
  span := ⟨1, 1⟩
}

theorem leapDay_usual
    : leapDay.IsUsual Int := by
  refine ⟨⟨"2024-02-29", (TokenText.scan "2024-02-29").tokens, ?_⟩, by decide, by decide⟩
  have tokens : (TokenText.scan "2024-02-29" : TokenText Int).tokens
      = [⟨.date leapDay, "2024-02-29", ⟨1, 1⟩⟩] := by cbv
  rw [tokens]
  exact ⟨_, List.suffix_refl _, rfl, rfl⟩

theorem nextYear_usual
    : (PartialDate.ofYear 2025).IsUsual Int := by
  refine ⟨⟨"2025", (TokenText.scan "2025").tokens, ?_⟩, by decide, by decide⟩
  have tokens : (TokenText.scan "2025" : TokenText Int).tokens
      = [⟨.number 2025, "2025", ⟨1, 1⟩⟩] := by cbv
  rw [tokens]
  exact ⟨.single _ (.ofYear 2025), List.suffix_refl _, by cbv, rfl⟩

theorem scenario_keepsOrder
    : KeepsOrder scenario.check.findings := by
  have codes : scenario.check.findings.map (·.finding.code) = [.warning 2] := by cbv
  intro l found
  have among := List.mem_map_of_mem (f := (·.finding.code)) found
  rw [codes] at among
  simp_all

end LeapYear

/-- A leap day and the next year are in order, a timeframe from one to the other has days, and
anchors there have times that grow.
-/
theorem chronology_is_one_order_leapYear
    : (∃ a b,
        LeapYear.leapDay.start = .ok a ∧ (PartialDate.ofYear 2025).start = .ok b
          ∧ a.ordinal < b.ordinal ∧ (a.yearFraction : ℝ) < b.yearFraction)
      ∧ (∃ days,
          timeline LeapYear.scenario.metadata.timeframe LeapYear.scenario.metadata.resolution
              = .ok days
            ∧ days ≠ [])
      ∧ ∃ times : List ℝ,
          (LeapYear.level.anchors.mapM fun a => a.date.yearFraction) = .ok times
            ∧ times.Pairwise (· < ·) := by
  have order := chronology_is_one_order Int
  have first := LeapYear.leapDay_usual
  have second := LeapYear.nextYear_usual
  obtain ⟨a, b, starts, others, days, places⟩ := order.1 _ _ first second
  have before : LeapYear.leapDay.before (.ofYear 2025) = true := by decide
  obtain ⟨timeline, times⟩ := order.2 LeapYear.scenario LeapYear.scenario_keepsOrder
  refine ⟨⟨a, b, starts, others, days.mp before, places.mp before⟩, timeline ?_,
    times LeapYear.level (.declared (by simp [LeapYear.scenario])) ?_⟩
  · intro t given
    cases given
    exact ⟨first, second, by decide⟩
  · exact List.forall_mem_cons.mpr ⟨first, List.forall_mem_singleton.mpr second⟩

end Prognosis
