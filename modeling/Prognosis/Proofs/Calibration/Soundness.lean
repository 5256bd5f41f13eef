import Mathlib.Analysis.SpecialFunctions.Pow.Real
import Prognosis.Proofs.Calibration.Posteriors
import Prognosis.Proofs.Calibration.Recalibration

/-! Calibration and the checks. What was right stays right, except that a logarithmic posterior may
be left without spread, which its family does not allow.
-/

namespace Prognosis

open Relation

variable {α : Type} [Scalar α]

-----------------------------------------------------------------------------------------
-- Uncertainties of named values
-----------------------------------------------------------------------------------------

namespace Check

variable {symbols : Symbols α} {index : Nat} {nested : Bool} {q : Quantity α} {d : Distribution α}

/-- An uncertainty without errors fits anywhere. -/
theorem fits_of_checkQuantity (clean : Clean (checkQuantity symbols index nested q))
    (has : q.uncertainty? = some d)
    : Fits symbols .declared d := by
  cases q with
  | assumption a =>
      replace has : a.uncertainty = some d := has
      simp only [checkQuantity, checkAssumption, Clean.append_iff, has, Option.toList_some,
        List.flatMap_singleton] at clean
      exact ((clean_checkDistribution_iff (by simp)).mp clean.1.1.2).declared
  | parameter p =>
      replace has : p.uncertainty = some d := has
      simp only [checkQuantity, checkParameter, Clean.append_iff, has, Option.toList_some,
        List.flatMap_singleton] at clean
      exact ((clean_checkDistribution_iff (by simp)).mp clean.2).declared
  | varying v =>
      replace has : v.uncertainty = some d := has
      simp only [checkQuantity, checkVariable, Clean.append_iff, has] at clean
      exact (clean_checkDistribution_iff (by simp)).mp clean.2
  | impact i => cases has

/-- What is wrong after an exchange of the uncertainty was wrong before, or it is wrong with the new
one.
-/
theorem of_mem_checkQuantity_withUncertainty {l : Located (Finding α)}
    (member : l ∈ checkQuantity symbols index nested (q.withUncertainty d))
    : l ∈ checkQuantity symbols index nested q
      ∨ ∃ scope owner, l ∈ checkDistribution symbols scope owner d := by
  cases q with
  | assumption a =>
      simp only [Quantity.withUncertainty, checkQuantity, checkAssumption, List.mem_append,
        Option.toList_some, List.flatMap_singleton] at member ⊢
      rcases member with ((front | new) | binding) | watch
      · exact Or.inl (Or.inl (Or.inl (Or.inl front)))
      · exact Or.inr ⟨_, _, new⟩
      · exact Or.inl (Or.inl (Or.inr binding))
      · exact Or.inl (Or.inr watch)
  | parameter p =>
      simp only [Quantity.withUncertainty, checkQuantity, checkParameter, List.mem_append,
        Option.toList_some, List.flatMap_singleton] at member ⊢
      rcases member with front | new
      · exact Or.inl (Or.inl front)
      · exact Or.inr ⟨_, _, new⟩
  | varying v =>
      simp only [Quantity.withUncertainty, checkQuantity, checkVariable, List.mem_append]
        at member ⊢
      rcases member with front | new
      · exact Or.inl (Or.inl front)
      · exact Or.inr ⟨_, _, new⟩
  | impact i => exact Or.inl member

end Check

namespace Calibration

open Check
open Scalar (SignRules)

variable {s : Scenario α} {d : Distribution α}

-----------------------------------------------------------------------------------------
-- Distributions that arise
-----------------------------------------------------------------------------------------

/-- The form in which a prior is read follows from the distribution. -/
theorem form_of_prior {base : α} {prior : Prior α}
    (read : Prior.ofDistribution? d base = .ok (some prior))
    : prior.form
      = if d.kind = .lognormal then .logarithmic
        else if d.isRelative then .relative else .absolute := by
  simp only [Prior.ofDistribution?] at read
  split at read
  case h_1 logarithmic =>
    rw [if_pos logarithmic]
    split at read
    · split at read
      · obtain ⟨mean, -, read⟩ := exists_of_bind_eq_ok read
        obtain ⟨deviation, -, read⟩ := exists_of_bind_eq_ok read
        cases read
        rfl
      · cases read
    · cases read
  case h_2 plain =>
    rw [if_neg plain]
    obtain ⟨moments, -, read⟩ := exists_of_bind_eq_ok read
    cases moments with
    | none => cases read
    | some moments =>
        cases read
        rfl

/-- A lognormal distribution comes from a declared one, by induction on how it arises. -/
theorem Arises.lognormal (arises : Arises s d) (kind : d.kind = .lognormal)
    : ∃ d', HasDistribution s d' ∧ d'.kind = .lognormal := by
  induction arises with
  | declared declares => exact ⟨_, declares, kind⟩
  | @posterior d base prior moments before read deviation ih =>
      rw [posterior_kind, form_of_prior read] at kind
      by_cases logarithmic : d.kind = .lognormal
      · exact ih logarithmic
      · rw [if_neg logarithmic] at kind
        split at kind <;> split at kind <;> simp_all

/-- A logarithmic posterior is left without spread. It comes from a declared lognormal
distribution.
-/
def SpreadLost (s : Scenario α) (l : Located (Finding α)) : Prop :=
  (∃ owner spread, l.finding = .lognormalSpread owner spread
      ∧ Scalar.lt Scalar.zero spread = false)
    ∧ ∃ d, HasDistribution s d ∧ d.kind = .lognormal

variable [SignRules α]

/-- Nothing else is wrong with posteriors, wherever they stand. -/
theorem spreadLost_of_posterior {base : α} {prior : Prior α} {moments : Moments α}
    (before : Arises s d) (read : Prior.ofDistribution? d base = .ok (some prior))
    (deviation : NotNegative moments.deviation) {symbols : Symbols α}
    {scope : Check.Scope} {owner : Owner} {l : Located (Finding α)}
    (member : l ∈ checkDistribution symbols scope owner (posterior d prior.form moments))
    : SpreadLost s l := by
  rw [checkDistribution_posterior deviation] at member
  split at member
  case isTrue lost =>
    cases List.mem_singleton.mp member
    refine ⟨⟨owner, moments.deviation, rfl, lost.2⟩, before.lognormal ?_⟩
    by_contra plain
    have form := form_of_prior read
    rw [if_neg plain, lost.1] at form
    split at form <;> cases form
  case isFalse => cases member

/-- Nor with any distribution that arises, wherever it is remembered. -/
theorem Arises.spreadLost {graph : CausalGraph} (accepted : s.Accepted graph)
    (arises : Arises s d) {owner : Owner} {l : Located (Finding α)}
    (member : l ∈ checkDistribution (Symbols.ofScenario s) .declared owner d)
    (error : l.isError = true)
    : SpreadLost s l := by
  cases arises with
  | posterior before read deviation => exact spreadLost_of_posterior before read deviation member
  | declared declares =>
      have fits : Fits (Symbols.ofScenario s) .declared d := by
        cases declares with
        | uncertainty declared has =>
            obtain ⟨index, placed⟩ := List.mem_iff_getElem?.mp declared
            exact fits_of_checkQuantity (accepted.clean_of_mem placed) has
        | prior declared has =>
            obtain ⟨index, placed⟩ := List.mem_iff_getElem?.mp declared
            have clean := (Clean.append_iff.mp (accepted.clean_of_mem placed)).2
            rw [has] at clean
            exact (clean_checkDistribution_iff (by simp)).mp (by simpa using clean)
      rw [(clean_checkDistribution_iff (by simp)).mpr fits l member] at error
      cases error

-----------------------------------------------------------------------------------------
-- Declarations
-----------------------------------------------------------------------------------------

/-- And with what else a calibration makes of declarations. -/
theorem Recalibrated.spreadLost {graph : CausalGraph} (accepted : s.Accepted graph) {place : Nat}
    {d₀ d' : Declaration α} (recalibrated : Recalibrated s d₀ d')
    (placed : s.declarations[place]? = some d₀) {l : Located (Finding α)}
    (member : l ∈ checkDeclaration (Symbols.ofScenario s) place d') (error : l.isError = true)
    : SpreadLost s l := by
  have before := accepted.clean_of_mem placed
  cases recalibrated with
  | same =>
      rw [before l member] at error
      cases error
  | corrected q arises read deviation =>
      rcases of_mem_checkQuantity_withUncertainty member with old | ⟨scope, owner, new⟩
      · rw [before l old] at error
        cases error
      · exact spreadLost_of_posterior arises read deviation new
  | remembered c arises =>
      rcases List.mem_append.mp member with target | prior
      · rw [before l (List.mem_append_left _ target)] at error
        cases error
      · exact arises.spreadLost accepted (by simpa using prior) error

end Calibration

-----------------------------------------------------------------------------------------
-- Scenarios
-----------------------------------------------------------------------------------------

namespace Scenario

open Calibration

variable {s : Scenario α} {observed : Observations α} {window : α} {calibrated : Calibrated α}
  {ds : List (Declaration α)}

/-- Nothing new comes before anything: posteriors read no names. -/
theorem precedes_of_recalibrated (related : List.Forall₂ (Recalibrated s) s.declarations ds)
    {root name : String} (precedes : (s.withDeclarations ds).Precedes root name)
    : s.Precedes root name := by
  have outlined : s.Outlined ds := related.imp fun _ _ => Recalibrated.alike
  have mentions {place : Nat} {q q' : Quantity α}
      (placed : s.declarations[place]? = some (.quantity q))
      (placed' : ds[place]? = some (.quantity q'))
      : q'.listed = q.listed ∧ ∀ root ∈ q'.mentions, root ∈ q.mentions := by
    cases related_of_getElem? related placed placed' with
    | same => exact ⟨rfl, fun _ read => read⟩
    | corrected _ =>
        refine ⟨by cases q <;> rfl, fun root read => ?_⟩
        cases q with
        | varying v =>
            simp only [Quantity.withUncertainty, Quantity.mentions, Quantity.listed,
              Quantity.expressions, Option.toList_some, List.flatMap_singleton, List.flatMap_append,
              posterior_roots, List.append_nil, List.mem_append] at read ⊢
            exact read.imp id Or.inl
        | assumption _ | parameter _ | impact _ => exact read
  obtain ⟨node, lists | ⟨⟨varying, owns, timed⟩, q', stands, mentioned⟩⟩ := precedes
  · obtain ⟨q', owns, listed⟩ := lists
    obtain ⟨place, q, owns, placed, placed', -⟩ := outlined.owner?_cases owns
    exact ⟨outlined.isNode_iff.mp node, Or.inl ⟨q, owns, (mentions placed placed').1 ▸ listed⟩⟩
  · obtain ⟨_, r, owns, -, -, kind⟩ := outlined.owner?_cases owns
    have timed : r.isConstant = false := by
      rw [← timed, Quantity.isConstant, Quantity.isConstant, kind]
    refine ⟨outlined.isNode_iff.mp node, Or.inr ⟨⟨r, owns, timed⟩, ?_⟩⟩
    cases stands with
    | owner owns =>
        obtain ⟨place, q, owns, placed, placed', -⟩ := outlined.owner?_cases owns
        exact ⟨q, .owner owns, (mentions placed placed').2 root mentioned⟩
    | override owns branch member named kind =>
        obtain ⟨-, q, owns, -, -, kind'⟩ := outlined.owner?_cases owns
        exact ⟨q', .override owns (outlined.branches ▸ branch) member named (kind.trans kind'),
          mentioned⟩

variable [Scalar.SignRules α]

/-- A scenario without errors still has a causal graph after calibration, whatever is observed, and
whatever its priors and methods are. The only errors it can have are those of logarithmic
distributions that are left without spread. So a scenario that declares no lognormal distribution
has none.

Witness: every declaration looks the same from outside, and distributions that are written read no
names and have no negative deviation.
-/
theorem check_calibrated (clean : s.check.errors = [])
    (done : s.calibrate observed window = .ok calibrated)
    : (∃ graph, calibrated.scenario.check.graph = some graph)
      ∧ (∀ l ∈ calibrated.scenario.check.errors, SpreadLost s l)
      ∧ ((∀ d : Distribution α, HasDistribution s d → d.kind ≠ .lognormal)
        → calibrated.scenario.check.errors = []) := by
  obtain ⟨graph, -, accepted⟩ := accepted_of_clean clean
  obtain ⟨same, related, -⟩ := recalibrates_of_calibrate done
  have acyclic (name : String)
      : ¬TransGen (s.withDeclarations calibrated.scenario.declarations).Precedes name name := by
    intro round
    have within : (s.withDeclarations calibrated.scenario.declarations).Precedes ≤ s.Precedes :=
      fun _ _ => precedes_of_recalibrated related
    exact acyclic_of_isOrder accepted.isOrder name (TransGen.mono within _ _ round)
  have outlined : s.Outlined calibrated.scenario.declarations :=
    related.imp fun _ _ => Recalibrated.alike
  have spread {place : Nat} {d : Declaration α}
      (placed : calibrated.scenario.declarations[place]? = some d) (l : Located (Finding α))
      (member : l ∈ Check.checkDeclaration (Symbols.ofScenario s) place d)
      (error : l.isError = true)
      : SpreadLost s l := by
    obtain ⟨bound, -⟩ := List.getElem?_eq_some_iff.mp placed
    have declared := List.getElem?_eq_getElem (related.length_eq ▸ bound)
    exact (related_of_getElem? related declared placed).spreadLost accepted declared member error
  rw [same]
  obtain ⟨graph, errors⟩ :=
    outlined.check_errors clean acyclic fun _ _ placed => spread placed
  refine ⟨graph, errors, fun plain => ?_⟩
  refine List.eq_nil_iff_forall_not_mem.mpr fun l member => ?_
  obtain ⟨-, d, declares, kind⟩ := errors l member
  exact plain d declares kind

end Scenario

-----------------------------------------------------------------------------------------
-- A market
-----------------------------------------------------------------------------------------

namespace Market

open Calibration

/-- The place at which everything stands. -/
def place : Span :=
  ⟨1, 1⟩

/-- The day of all observations. -/
def day : Date :=
  ⟨2025, 1, 1, by decide, by decide, by decide, by decide, by decide, by decide⟩

/-- A price with an uncertainty. -/
def price (value : ℝ) (d : Distribution ℝ) : Assumption ℝ := {
  name := "price"
  value := some (.number value none)
  byDate := none
  source := some "exchange"
  confidence := none
  uncertainty := some d
  binding := none
  watch := none
  span := place
}

/-- The correction of the price by the mean and the deviation of its observations. -/
def correction (remembered : Option (Distribution ℝ)) : Calibrate ℝ := {
  target := .ofRoot "price"
  historical := none
  method := some .maximumLikelihood
  window := none
  prior := remembered
  updateFrequency := none
  span := place
}

/-- A market of one price. -/
def market (value : ℝ) (d : Distribution ℝ) (remembered : Option (Distribution ℝ)) : Scenario ℝ := {
  name := "market"
  metadata := { Metadata.empty with timeframe := some ⟨.ofYear 2025, .ofYear 2026⟩ }
  declarations := [.quantity (.assumption (price value d)), .calibrate (correction remembered)]
  span := place
}

/-- Observations of the price. -/
def observed (values : List ℝ) : Observations ℝ :=
  [("price", ⟨"price", values.map fun x => ⟨day, x, "exchange", false⟩, "", none⟩)]

/-- A lognormal distribution around one. -/
def logs (spread : ℝ) : Distribution ℝ :=
  ⟨.lognormal, [.number 0 none, .number spread none], [], place⟩

/-- A normal distribution whose deviation is a share of the price, in hundredths. -/
def shares (spread : ℝ) : Distribution ℝ :=
  ⟨.normal, [.unary .plusMinus (.percentage spread none) none], [], place⟩


variable (value : ℝ) (d : Distribution ℝ) (remembered : Option (Distribution ℝ))

theorem market_graph
    : CausalGraph.ofScenario (market value d remembered) = .ok ⟨["price"], [], ["price"]⟩ := by
  cbv

/-- Only the distributions of the market can be wrong. -/
theorem market_findings
    : ∃ symbols, (market value d remembered).findings
        = Check.checkDistribution symbols (.constantsBefore 0) (.quantity .assumption "price") d
          ++ remembered.toList.flatMap
              (Check.checkDistribution symbols .declared (.calibrate "price")) := by
  refine ⟨Symbols.ofScenario (market value d remembered), ?_⟩
  have owned : Symbols.collect [] 0 (market value d remembered).declarations
      = (Symbols.ofScenario (market value d remembered), []) := rfl
  have target : (Symbols.ofScenario (market value d remembered)).referent? (.ofRoot "price")
      = some (.quantity (.assumption (price value d))) := by cbv
  have ordered : (PartialDate.ofYear 2025).before (.ofYear 2026) = true := by cbv
  have text : (Path.ofRoot "price").text = "price" := by cbv
  have numeral : Expr.IsNumeral value (.number value none) := .number none
  rw [Scenario.findings, owned]
  generalize Symbols.ofScenario (market value d remembered) = symbols at target
  simp [market, Metadata.empty, Check.checkMetadata, Check.checkDeclaration, Check.checkQuantity,
    Check.checkAssumption, Check.checkCalibrate, Check.reportIf, price, ordered, target,
    numeral.checkExpression, correction, text]

open Calibration


/-- All observations lie in any window. -/
theorem windowValues_observed (values : List ℝ) {window : ℝ} (long : 0 ≤ window)
    : windowValues (values.map fun x => ⟨day, x, "exchange", false⟩) window = values := by
  have within
      : (day.yearFraction - window - Scalar.ofDecimal false 1 (-9) : ℝ) ≤ day.yearFraction := by
    rw [Scalar.ofDecimal_real]
    norm_num
    linarith
  simp only [windowValues, List.getLast?_map]
  cases last : values.getLast? with
  | none => rw [List.getLast?_eq_none_iff.mp last, Option.map_none]
  | some latest =>
      simp only [Option.map_some, List.filter_map, Function.comp_def, Scalar.le_real, within,
        decide_true, List.filter_true, List.map_map, List.map_id']

/-- The price is corrected by its observations. -/
theorem market_calibrate (values : List ℝ) {window : ℝ} {prior : Prior ℝ} (long : 0 ≤ window)
    (worth : value ≠ 0) (read : Prior.ofDistribution? d value = .ok (some prior))
    (known : (valuesFor prior.form values).isEmpty = false)
    : let moments := maximumLikelihood prior.moments (valuesFor prior.form values)
      (market value d none).calibrate (observed values) window
        = .ok ⟨market value (posterior d prior.form moments) (some d),
            [("price", ⟨"price", .maximumLikelihood, d, posterior d prior.form moments,
              (valuesFor prior.form values).length, moments⟩)],
            []⟩ := by
  intro moments
  have text : (Path.ofRoot "price").text = "price" := by cbv
  have found : placeOf? (market value d none).declarations "price" = some 0 := by cbv
  have base : baseValue (.assumption (price value d)) values = .ok value := by
    simp [baseValue, baseExpression?, price, Expr.magnitude, Expr.value, worth]
  have inside := windowValues_observed values long
  let start : Progress ℝ := ⟨(market value d none).declarations, [], []⟩
  have corrected
      : calibrateAt start.declarations (observed values) window start 1 (correction none)
        = calibrateWith start 1 0 (correction none) (.assumption (price value d)) d values := by
    have given : ((observed values).lookup "price").map (·.points)
        = some (values.map fun x => ⟨day, x, "exchange", false⟩) := rfl
    cases values with
    | nil =>
        obtain ⟨_, form⟩ := prior
        cases form <;> cases known
    | cons x rest =>
        rw [List.map_cons] at given inside
        simp only [calibrateAt, correction, text, given, found, start]
        simp [market, price, Declaration.quantity?, Quantity.uncertainty?, inside]
  have whole : calibrateFrom start.declarations (observed values) window start 0 start.declarations
      = .ok ⟨(market value (posterior d prior.form moments) (some d)).declarations,
            [("price", ⟨"price", .maximumLikelihood, d, posterior d prior.form moments,
              (valuesFor prior.form values).length, moments⟩)], []⟩ := by
    have done : calibrateAt start.declarations (observed values) window start 1 (correction none)
        = .ok ⟨(market value (posterior d prior.form moments) (some d)).declarations,
            [("price", ⟨"price", .maximumLikelihood, d, posterior d prior.form moments,
              (valuesFor prior.form values).length, moments⟩)], []⟩ := by
      simp only [corrected, calibrateWith, base, bind, Except.bind, read, known]
      simp only [correction, update, text]
      rfl
    simp only [start, market, calibrateFrom] at done ⊢
    rw [done]
  simp only [Scenario.calibrate]
  rw [show (market value d none).declarations = start.declarations from rfl, whole]
  rfl

theorem market_clean
    (fits : ∀ (symbols : Symbols ℝ) scope owner, Check.checkDistribution symbols scope owner d = [])
    : (market value d none).check.errors = [] := by
  obtain ⟨symbols, findings⟩ := market_findings value d none
  rw [Scenario.check_of_order (market_graph value d none), Checked.errors, findings, fits]
  rfl

theorem fits_logs {spread : ℝ} (some : 0 < spread) (symbols : Symbols ℝ) (scope : Check.Scope)
    (owner : Owner)
    : Check.checkDistribution symbols scope owner (logs spread) = [] := by
  have same : logs spread = posterior (logs spread) .logarithmic ⟨0, spread⟩ := rfl
  rw [same, checkDistribution_posterior (by simpa [NotNegative] using some.le)]
  simp [some]

theorem fits_shares {spread : ℝ} (some : 0 ≤ spread) (symbols : Symbols ℝ) (scope : Check.Scope)
    (owner : Owner)
    : Check.checkDistribution symbols scope owner (shares spread) = [] := by
  have same : shares spread = posterior (shares spread) .relative ⟨1, spread / 100⟩ := by
    simp [posterior, shares]
  rw [same, checkDistribution_posterior (by simpa [NotNegative] using by positivity)]
  rfl

theorem read_logs (spread : ℝ)
    : Prior.ofDistribution? (logs spread) value = .ok (some ⟨⟨0, |spread|⟩, .logarithmic⟩) :=
  rfl

theorem read_shares (spread : ℝ)
    : Prior.ofDistribution? (shares spread) value
      = .ok (some ⟨⟨value, |value| * |spread| / 100⟩, .relative⟩) := by
  have parameters : (shares spread).parameterValues [] = some (.ok [spread]) := rfl
  have relative : (shares spread).isRelative = true := rfl
  have normal : (shares spread).kind = .normal := rfl
  simp [Prior.ofDistribution?, Distribution.moments, Distribution.momentsWith, parameters, relative,
    normal, Halt.lift, bind, Except.bind, pure, Except.pure]

/-- A single observation leaves the deviation. -/
theorem maximumLikelihood_one (m : Moments ℝ) (x : ℝ)
    : maximumLikelihood m [x] = ⟨x, m.deviation⟩ := by
  simp [maximumLikelihood, Sample.mean, Sample.total, Sample.pairwiseTotal, Sample.blockTotal,
    Scalar.sum, Sample.blockSize, Sample.laneCount]

/-- Two equal observations have no deviation. -/
theorem maximumLikelihood_twice (m : Moments ℝ) (x : ℝ)
    : maximumLikelihood m [x, x] = ⟨x, 0⟩ := by
  simp [maximumLikelihood, Sample.mean, Sample.variance, Sample.total, Sample.pairwiseTotal,
    Sample.blockTotal, Scalar.sum, Sample.blockSize, Sample.laneCount]

/-- A price of 100 with a deviation of a tenth, seen once at 110: all is right before and after. -/
theorem shares_stay_right
    : ∃ calibrated,
        (market 100 (shares 10) none).check.errors = []
          ∧ (market 100 (shares 10) none).calibrate (observed [110]) 2 = .ok calibrated
          ∧ (∃ graph, calibrated.scenario.check.graph = some graph)
          ∧ calibrated.scenario.check.errors = [] := by
  have clean := market_clean 100 (shares 10) (fits_shares (by norm_num))
  have done := market_calibrate 100 (shares 10) [110] (by norm_num : (0 : ℝ) ≤ 2) (by norm_num)
    (read_shares 100 10) rfl
  obtain ⟨graph, -, plain⟩ := Scenario.check_calibrated clean done
  refine ⟨_, clean, done, graph, plain fun d has => ?_⟩
  cases has with
  | @uncertainty q _ declared is =>
      obtain rfl : q = .assumption (price 100 (shares 10)) := by simpa [market] using declared
      cases is
      decide
  | @prior c _ declared is =>
      obtain rfl : c = correction none := by simpa [market] using declared
      cases is

/-- A price with a lognormal uncertainty, seen twice at one: the observations show no deviation, and
the posterior without any is an error.
-/
theorem logs_lose_spread
    : ∃ calibrated,
        (market 1 (logs (1 / 2)) none).check.errors = []
          ∧ (market 1 (logs (1 / 2)) none).calibrate (observed [1, 1]) 2 = .ok calibrated
          ∧ calibrated.scenario.check.errors ≠ [] := by
  have values : valuesFor .logarithmic [1, 1] = [(0 : ℝ), 0] := by
    simp [valuesFor]
  have done := market_calibrate 1 (logs (1 / 2)) [1, 1] (by norm_num : (0 : ℝ) ≤ 2) one_ne_zero
    (read_logs 1 (1 / 2)) (by simp [values])
  refine ⟨_, market_clean 1 (logs (1 / 2)) (fits_logs (by norm_num)), done, ?_⟩
  simp only [values, maximumLikelihood_twice]
  obtain ⟨symbols, findings⟩ :=
    market_findings 1 (posterior (logs (1 / 2)) .logarithmic ⟨0, 0⟩) (some (logs (1 / 2)))
  rw [Scenario.check_of_order (market_graph _ _ _), Checked.errors, findings,
    checkDistribution_posterior (by simp [NotNegative]), if_pos (by simp)]
  exact List.cons_ne_nil _ _

end Market

end Prognosis
