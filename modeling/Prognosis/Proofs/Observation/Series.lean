import Prognosis.Calibration
import Prognosis.Proofs.Observation.Order
import Prognosis.Proofs.Observation.Search
import Prognosis.Proofs.Observation.Sources

/-! Observed series are in the order of their days. Every adapter that comes with the library puts
what it delivers in order, and transforms, fallbacks and reports keep it so. The last observation is
therefore the latest one, and a window of years before it holds the last observations.
-/

namespace Prognosis

variable {α : Type} [Scalar α]

-----------------------------------------------------------------------------------------
-- Windows
-----------------------------------------------------------------------------------------

/-- What holds on from somewhere in a list holds of its end. By induction along the list. -/
theorem exists_front_filter {β : Type} {p : β → Bool} {xs : List β}
    (onward : xs.Pairwise fun x y => p x = true → p y = true)
    : ∃ front, xs = front ++ xs.filter p := by
  induction xs with
  | nil => exact ⟨[], rfl⟩
  | cons x rest ih =>
      obtain ⟨here, later⟩ := List.pairwise_cons.mp onward
      cases holds : p x with
      | true =>
          have all := List.filter_eq_self.mpr fun y member => here y member holds
          exact ⟨[], by rw [List.filter_cons_of_pos holds, all, List.nil_append]⟩
      | false =>
          obtain ⟨front, split⟩ := ih later
          refine ⟨x :: front, ?_⟩
          rw [List.filter_cons_of_neg (by simp [holds]), List.cons_append, ← split]

variable {points : List (ObservedPoint α)}

open Calibration in
/-- A window holds the last of the points, the latest one among them. -/
theorem InOrder.exists_window [Scalar.AxisRules α] (ordered : InOrder points)
    {latest : ObservedPoint α} (last : points.getLast? = some latest) {window : α}
    (nonneg : Scalar.le Scalar.zero window = true)
    : ∃ front inside, points = front ++ inside ∧ inside.getLast? = some latest
      ∧ windowValues points window = inside.map (·.value) := by
  let start := latest.date.yearFraction - window - Scalar.ofDecimal false 1 (-9)
  let within (p : ObservedPoint α) : Bool := Scalar.le start p.date.yearFraction
  have values : windowValues points window = (points.filter within).map (·.value) := by
    simp only [windowValues, last, start, within]
  obtain ⟨front, split⟩ : ∃ front, points = front ++ points.filter within :=
    exists_front_filter <| ordered.imp fun before reached =>
      Scalar.AxisRules.le_trans reached (Scalar.AxisRules.yearFraction_le before)
  have kept : latest ∈ points.filter within :=
    List.mem_filter.mpr
      ⟨List.mem_of_getLast? last, Scalar.AxisRules.back_le latest.date nonneg⟩
  refine ⟨front, points.filter within, split, ?_, values⟩
  rw [split, List.getLast?_append_of_ne_nil _ (List.ne_nil_of_mem kept)] at last
  exact last

-----------------------------------------------------------------------------------------
-- Adapters
-----------------------------------------------------------------------------------------

namespace Adapter

/-- An adapter that comes with the library, whatever function, answers or datasets are behind it. A
source may answer each attempt differently.
-/
inductive IsBuiltIn (today : Date) : Adapter α → Prop
  | supplied (name : String) (handles : String → Bool) (supply : String → Nat → Supply α)
    (retry : RetryPolicy α)
    : IsBuiltIn today (.supplied name handles supply retry)
  | eurostat (webs : Nat → Web α) (retry : RetryPolicy α)
    : IsBuiltIn today (Eurostat.answeredBy webs retry)
  | worldBank (webs : Nat → Web α) (retry : RetryPolicy α)
    : IsBuiltIn today (WorldBank.answeredBy webs today retry)
  | fallback (registry : Registry α) (retry : RetryPolicy α)
    : IsBuiltIn today (registry.adapter retry)

/-- Whatever is asked of the adapter and whenever, what it delivers is in order. -/
def Chronological (a : Adapter α) : Prop :=
  ∀ request made points, a.attempt request made = .delivered points → InOrder points

omit [Scalar α] in
theorem supply_inOrder {supply : Supply α} {name locator : String}
    (delivered : supply.attempt name locator = .delivered points)
    : InOrder points := by
  cases supply with
  | points found =>
      cases delivered
      exact ObservedPoint.chronological_inOrder found
  | _ => cases delivered

omit [Scalar α] in
theorem web_inOrder {web : Web α} {name source : String} {query : Option (Query α)}
    {read : Json α → Except Fault (List (ObservedPoint α))}
    (delivered : web.attempt name source query read = .delivered points)
    : InOrder points := by
  unfold Web.attempt at delivered
  split at delivered
  case h_1 =>
    cases delivered
    exact .nil
  case h_2 =>
    split at delivered
    case h_1 => cases delivered
    case h_2 =>
      split at delivered
      case h_1 found _ =>
        cases delivered
        exact ObservedPoint.chronological_inOrder found
      case h_2 => cases delivered

theorem dataset_inOrder {dataset : Dataset α} (read : dataset.points = .ok points)
    : InOrder points := by
  unfold Dataset.points at read
  cases found : dataset.entries.mapM (Dataset.point dataset.source) with
  | error fault =>
      rw [found] at read
      cases read
  | ok given =>
      rw [found] at read
      cases read
      exact ObservedPoint.chronological_inOrder given

theorem registry_inOrder {registry : Registry α} {request : DataRequest}
    (delivered : registry.attempt request = .delivered points)
    : InOrder points := by
  unfold Registry.attempt at delivered
  split at delivered
  case h_1 =>
    cases delivered
    exact .nil
  case h_2 =>
    split at delivered
    case h_1 read =>
      cases delivered
      exact dataset_inOrder read
    case h_2 => cases delivered

/-- All adapters that come with the library put what they deliver in order. -/
theorem IsBuiltIn.chronological {today : Date} {a : Adapter α} (builtIn : a.IsBuiltIn today)
    : a.Chronological := by
  intro request made points delivered
  cases builtIn with
  | supplied name handles supply retry => exact supply_inOrder delivered
  | eurostat webs retry => exact web_inOrder delivered
  | worldBank webs retry => exact web_inOrder delivered
  | fallback registry retry => exact registry_inOrder delivered

end Adapter

-----------------------------------------------------------------------------------------
-- Targets
-----------------------------------------------------------------------------------------

omit [Scalar α] in
theorem inOrder_iff : InOrder points ↔ (points.map (·.date.ordinal)).Pairwise (· ≤ ·) :=
  List.pairwise_map.symm

/-- A transform changes no days. -/
theorem days_of_changes {e : Expr α} {made : List (ObservedPoint α)}
    (changes : List.Forall₂ (Changes e) points made)
    : made.map (·.date.ordinal) = points.map (·.date.ordinal) := by
  induction changes with
  | nil => rfl
  | cons change _ ih =>
      obtain ⟨x, -, rfl⟩ := change
      rw [List.map_cons, List.map_cons, ih]

theorem transformed_inOrder {transform : Option (Expr α)} {kept : List (ObservedPoint α)}
    (ordered : InOrder points) (is : transformed transform points = .ok kept)
    : InOrder kept := by
  cases transforms_iff.mpr is with
  | untouched => exact ordered
  | changed changes =>
      rw [inOrder_iff, ← days_of_changes changes, ← inOrder_iff] at ordered
      exact ordered.filter _

namespace DataTarget

variable {t : DataTarget α} {series : ObservedSeries α}

/-- A search that finds something takes it from an adapter. By induction along the adapters. -/
theorem survey_observed {asked : List (Adapter α × Nat)}
    (ended : (t.survey asked).ended = some (.observed series))
    : series.target = t.name ∧ series.points ≠ []
      ∧ ∃ a ∈ asked, ∃ made points, a.1.attempt t.request made = .delivered points
        ∧ transformed t.transform points = .ok series.points := by
  induction asked with
  | nil => cases ended
  | cons a rest ih =>
      obtain ⟨adapter, earlier⟩ := a
      have later (ended : (t.survey rest).ended = some (.observed series)) :=
        (ih ended).imp_right fun found => found.imp_right fun given =>
          given.imp fun b => And.imp_left (List.mem_cons_of_mem (adapter, earlier))
      obtain ⟨made, attempt⟩ := adapter.fetch_last t.request earlier
      unfold survey at ended
      split at ended
      case isFalse => exact later ended
      case isTrue =>
        dsimp only at ended
        split at ended
        case h_1 | h_4 => exact later ended
        case h_2 | h_3 => simp [Survey.endedBy] at ended
        case h_5 points some last =>
          split at ended
          case h_1 | h_2 => simp [Survey.endedBy] at ended
          case h_3 => exact later ended
          case h_4 kept left is =>
            obtain rfl : _ = series := by simpa [Survey.endedBy] using ended
            exact ⟨rfl, left, _, List.mem_cons_self, made, points, attempt.symm.trans last, is⟩

/-- What is declared for a target without data is a single point. -/
theorem withoutData_observed {today : Date} {adapters : List (Adapter α)} {problems : List Problem}
    (observed : t.withoutData today adapters problems = .observed series)
    : series.target = t.name ∧ ∃ point, series.points = [point] := by
  unfold withoutData declared? at observed
  cases declared : t.fallback with
  | none =>
      simp only [declared, Option.map_none] at observed
      split at observed <;> cases observed
  | some e =>
      simp only [declared, Option.map_some] at observed
      split at observed
      case h_1 | h_2 => cases observed
      case h_3 value _ =>
        cases observed
        exact ⟨rfl, _, rfl⟩

/-- What a target comes to has its name and is in order, whatever others ask of the adapters. -/
theorem Fetches.inOrder {today : Date} {adapters : List (Adapter α)}
    (chronological : ∀ a ∈ adapters, a.Chronological)
    (fetches : t.Fetches today adapters (.observed series))
    : series.target = t.name ∧ series.points ≠ [] ∧ InOrder series.points := by
  obtain ⟨-, seen, shows, is⟩ := fetches
  unfold fetch at is
  dsimp only at is
  cases ended : (t.survey seen).ended with
  | none =>
      rw [ended] at is
      obtain ⟨name, point, single⟩ := withoutData_observed is
      rw [single]
      exact ⟨name, List.cons_ne_nil _ _, List.pairwise_singleton _ _⟩
  | some outcome =>
      rw [ended, Option.getD_some] at is
      subst is
      obtain ⟨name, some, b, member, made, points, delivered, kept⟩ := survey_observed ended
      obtain ⟨a, inside, shows⟩ := Adapter.exists_shown shows member
      obtain ⟨n, same⟩ := shows.attempts t.request made
      rw [same] at delivered
      exact ⟨name, some,
        transformed_inOrder (chronological a inside t.request n points delivered) kept⟩

end DataTarget

-----------------------------------------------------------------------------------------
-- Observed series
-----------------------------------------------------------------------------------------

/-- The observations under a name, of which there are some, are in the order of their days. So the
last one is of the latest day, and a window of years before it, which may be infinite, holds the
last observations, this one among them.
-/
structure ObservedSeries.RunsToLatest (s : ObservedSeries α) (name : String) : Prop where
  target : s.target = name
  some : s.points ≠ []
  ordered : InOrder s.points
  latest : ∃ latest, s.latest? = .some latest
    ∧ (∀ p ∈ s.points, p.date.ordinal ≤ latest.date.ordinal)
    ∧ ∀ window, Scalar.le Scalar.zero window = true →
      ∃ front inside, s.points = front ++ inside ∧ inside.getLast? = .some latest
        ∧ Calibration.windowValues s.points window = inside.map (·.value)

theorem InOrder.runsToLatest [Scalar.AxisRules α] {s : ObservedSeries α}
    (some : s.points ≠ []) (ordered : InOrder s.points)
    : s.RunsToLatest s.target := by
  have last : s.latest? = .some (s.points.getLast some) := List.getLast?_eq_some_getLast some
  exact ⟨rfl, some, ordered, _, last, ordered.le_getLast? last,
    fun _ nonneg => ordered.exists_window last nonneg⟩

namespace Scenario

open DataTarget in
/-- All series of a report run to their latest observations, whichever of the targets are done. -/
theorem reports_runToLatest [Scalar.AxisRules α] (s : Scenario α) {today : Date}
    {adapters : List (Adapter α)} (builtIn : ∀ a ∈ adapters, a.IsBuiltIn today) {pool : Pool α}
    (reaches : pool.Reaches today adapters (ofScenario s)) {timeout : α} {c : Collection α}
    (is : Collection.ofOutcomes timeout pool.done (ofScenario s) = .ok c)
    : ∀ entry ∈ c.observed, entry.2.RunsToLatest entry.1 := by
  intro entry member
  rw [(Collection.reports_of_ofOutcomes is).observed] at member
  obtain ⟨t, among, found⟩ := List.mem_filterMap.mp member
  obtain ⟨series, reported, rfl⟩ := Option.map_eq_some_iff.mp found
  have done : pool.done.lookup t.name = some (.observed series) := by
    unfold Collection.series? at reported
    split at reported
    case h_1 observed => rw [observed, Option.some.inj reported]
    case h_2 => cases reported
  obtain ⟨name, some, ordered⟩ :=
    Fetches.inOrder (fun a inside => (builtIn a inside).chronological)
      (reaches.accounts.fetches (nodup_ofScenario s) among done)
  exact name ▸ ordered.runsToLatest some

/-- Observed series are in the order of their days. Whatever functions, answers and datasets are
behind the adapters that come with the library, and whatever order these deliver observations in,
each series of a report is stored under the name of its target, is not empty and does not go back in
time. So the last observation, which rules are checked against and at which the window of a
calibration ends, is of the latest day, and a window that is not negative holds the last
observations, this one among them. That is so of every report on the targets, in whatever order they
are done and however many of them are, and of the observation of the scenario. Witness:
`Prices.shuffled_prices_in_order`.
-/
theorem observed_series_in_order [Scalar.AxisRules α] (s : Scenario α) {today : Date}
    {adapters : List (Adapter α)} (builtIn : ∀ a ∈ adapters, a.IsBuiltIn today) (timeout : α)
    : (∀ (pool : Pool α) (c : Collection α),
        pool.Reaches today adapters (DataTarget.ofScenario s) →
        Collection.ofOutcomes timeout pool.done (DataTarget.ofScenario s) = .ok c →
        ∀ entry ∈ c.observed, entry.2.RunsToLatest entry.1)
      ∧ ∀ c, s.observe today adapters timeout = .ok c →
        ∀ entry ∈ c.observed, entry.2.RunsToLatest entry.1 := by
  refine ⟨fun pool c reaches is => s.reports_runToLatest builtIn reaches is, fun c is => ?_⟩
  obtain ⟨pool, notices, reaches, observed⟩ := s.observe_reaches today adapters timeout
  rw [observed] at is
  cases reported : Collection.ofOutcomes timeout pool.done (DataTarget.ofScenario s) with
  | error fault =>
      rw [reported] at is
      cases is
  | ok report =>
      rw [reported] at is
      cases is
      intro entry member
      exact s.reports_runToLatest builtIn reaches reported entry member

end Scenario

/-- Whole years are in the order of days, which they do not tell apart. -/
instance : Scalar.AxisRules Int where
  le_trans first second :=
    decide_eq_true (Int.le_trans (of_decide_eq_true first) (of_decide_eq_true second))
  yearFraction_le {d e} before := by
    have place (d : Date) : (d.yearFraction : Int)
        = d.year + ((d.dayOfYear - 1 : Nat) : Int) / (daysInYear d.year : Nat) := rfl
    have inside (d : Date) : ((d.dayOfYear - 1 : Nat) : Int) / (daysInYear d.year : Nat) = 0 := by
      have bounds := daysInYear_bounds d.year
      have last := d.dayOfYear_le
      exact Int.ediv_eq_zero_of_lt (by omega) (by omega)
    refine decide_eq_true ?_
    rw [place, place, inside, inside]
    rcases d.year_cases before with less | ⟨same, -⟩ <;> omega
  back_le d {window} nonneg := by
    have margin : (Scalar.ofDecimal false 1 (-9) : Int) = 0 := rfl
    have long : (0 : Int) ≤ window := of_decide_eq_true nonneg
    refine decide_eq_true ?_
    rw [margin]
    omega

namespace Prices

/-- What the feed observed on the day of the example, in another year. -/
def reading (year : Nat) (has : (Date.ofNumbers? year 6 15).isSome) (value : Int)
    : ObservedPoint Int :=
  ⟨(Date.ofNumbers? year 6 15).get has, value, "feed", false⟩

/-- The feed, which delivers its observations in no order. -/
def shuffled : Adapter Int :=
  .supplied "feed" (· == "feed")
    (fun _ _ => .points [reading 2025 (by decide) 7, reading 2023 (by decide) 5,
      reading 2026 (by decide) 4, reading 2024 (by decide) 6]) ⟨0, 1, 1⟩

/-- The price at the feed. -/
def fed : Scenario Int :=
  ⟨"fed", .empty, [price "feed"], place⟩

/-- The feed after datasets that have nothing of it and before a source that cannot be reached. -/
def feeds : List (Adapter Int) :=
  [Registry.adapter [] twice, shuffled, Eurostat.answeredBy unreachable twice]

theorem feeds_builtIn : ∀ a ∈ feeds, a.IsBuiltIn today := by
  intro a member
  simp only [feeds, List.mem_cons, List.not_mem_nil, or_false] at member
  rcases member with rfl | rfl | rfl
  · exact .fallback [] twice
  · exact .supplied "feed" (· == "feed") _ _
  · exact .eurostat unreachable twice

theorem fed_observe
    : fed.observe today feeds 10
      = .ok ⟨[("price", ⟨"price",
          [reading 2023 (by decide) 5, reading 2024 (by decide) 6, reading 2025 (by decide) 7,
            reading 2026 (by decide) 4], "feed", some "feed"⟩)], [], []⟩ := by
  cbv

theorem shuffled_prices_in_order
    : (∀ a ∈ feeds, a.IsBuiltIn today)
      ∧ ∃ c series, fed.observe today feeds 10 = .ok c ∧ c.observed = [("price", series)]
        ∧ series.RunsToLatest "price" := by
  have report := (fed.observed_series_in_order feeds_builtIn 10).2 _ fed_observe
  exact ⟨feeds_builtIn, _, _, fed_observe, rfl, report _ List.mem_cons_self⟩

end Prices

end Prognosis
