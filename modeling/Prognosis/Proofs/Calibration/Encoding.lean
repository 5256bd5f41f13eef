import Mathlib.Analysis.SpecialFunctions.Pow.Real
import Prognosis.Proofs.Calibration.Soundness

/-! Posteriors are written as distributions, and simulation reads them again around declared values.
Over exact numbers it finds the moments that were reported, except where the prior was relative: the
posterior is relative then too, so its deviation comes back in proportion only.
-/

namespace Prognosis

namespace Calibration

variable {σ : Type} {d : Distribution ℝ} {form : PriorForm} {m : Moments ℝ}

-----------------------------------------------------------------------------------------
-- Reading what is written
-----------------------------------------------------------------------------------------

theorem notNegative_real {x : ℝ} : NotNegative x ↔ 0 ≤ x := by
  simp [NotNegative]

/-- Only posteriors of relative priors are relative: the other ones have two parameters. -/
theorem posterior_isRelative
    : (posterior d form m).isRelative = Decidable.decide (form = .relative) := by
  cases form <;> rfl

/-- The share of a size that a relative posterior gives its deviation. -/
noncomputable def proportion (m : Moments ℝ) : ℝ :=
  m.deviation / if m.mean = 0 then 1 else |m.mean|

theorem share_real : share m = proportion m * 100 := by
  by_cases zero : m.mean = 0 <;> simp [share, proportion, zero]

theorem proportion_nonneg (deviation : 0 ≤ m.deviation) : 0 ≤ proportion m := by
  rw [proportion]
  split <;> positivity

/-- Around the reported mean the deviation is the reported one. -/
theorem proportion_mul_mean (some : m.mean ≠ 0) : |m.mean| * proportion m = m.deviation := by
  rw [proportion, if_neg some, mul_div_cancel₀ _ (abs_ne_zero.mpr some)]

theorem relative_spread (deviation : 0 ≤ m.deviation) (base : ℝ)
    : |base| * |share m| / 100 = |base| * proportion m := by
  rw [share_real, abs_of_nonneg (mul_nonneg (proportion_nonneg deviation) (by norm_num)),
    ← mul_assoc, mul_div_assoc, div_self (by norm_num), mul_one]

/-- An absolute posterior has its moments around any value. -/
theorem moments_absolute (deviation : 0 ≤ m.deviation) (base : ℝ) (env : Env ℝ)
    : (posterior d .absolute m).moments base env = .ok (some (m.mean, m.deviation)) := by
  simp only [Distribution.moments, posterior_parameterValues, written]
  simp [Distribution.momentsWith, posterior_kind, Halt.lift, abs_of_nonneg deviation]

/-- A relative one has a deviation in proportion to the value. -/
theorem moments_relative (deviation : 0 ≤ m.deviation) (base : ℝ) (env : Env ℝ)
    : (posterior d .relative m).moments base env = .ok (some (base, |base| * proportion m)) := by
  simp only [Distribution.moments, posterior_parameterValues, written]
  simp [Distribution.momentsWith, posterior_kind, posterior_isRelative, Halt.lift,
    relative_spread deviation]

/-- So they are drawn. -/
theorem draw_absolute (deviation : 0 ≤ m.deviation) (source : RandomSource σ ℝ) (base : ℝ)
    (env : Env ℝ) (state : σ)
    : (posterior d .absolute m).draw source base env state
      = Halt.lift (source.normal m.mean m.deviation state) := by
  simp only [Distribution.draw, posterior_parameterValues, written]
  simp [Distribution.drawWith, posterior_kind, abs_of_nonneg deviation]

theorem draw_relative (deviation : 0 ≤ m.deviation) (source : RandomSource σ ℝ) (base : ℝ)
    (env : Env ℝ) (state : σ)
    : (posterior d .relative m).draw source base env state
      = Halt.lift (source.normal base (|base| * proportion m) state) := by
  simp only [Distribution.draw, posterior_parameterValues, written]
  simp [Distribution.drawWith, posterior_kind, posterior_isRelative, relative_spread deviation]

/-- A logarithmic posterior is drawn as the exponential of a number with its moments. -/
theorem draw_logarithmic (deviation : 0 ≤ m.deviation) (source : RandomSource σ ℝ) (base : ℝ)
    (env : Env ℝ) (state : σ)
    : (posterior d .logarithmic m).draw source base env state
      = Halt.lift ((source.normal m.mean m.deviation state).map fun (x, state) =>
          (Real.exp (min x exponentLimit), state)) := by
  simp only [Distribution.draw, posterior_parameterValues, written]
  simp only [Distribution.drawWith, posterior_kind, if_true, Scalar.abs_real,
    abs_of_nonneg deviation, Scalar.exp_real, Scalar.least_real]
  cases source.normal m.mean m.deviation state <;> rfl

-----------------------------------------------------------------------------------------
-- Reports
-----------------------------------------------------------------------------------------

/-- What simulation makes of the uncertainty that a report calls calibrated. The moments are the
reported ones, but relative priors stay relative: then the value itself is the mean, and the
deviation is to it as the reported deviation is to the reported mean.
-/
structure Decodes (r : CalibrationResult ℝ) : Prop where
  logarithmic (prior : r.before.kind = .lognormal)
    : r.calibrated.kind = .lognormal
      ∧ (∀ env,
          r.calibrated.parameterValues env = some (.ok [r.posterior.mean, r.posterior.deviation]))
      ∧ ∀ {σ : Type} (source : RandomSource σ ℝ) base env state,
          r.calibrated.draw source base env state
            = Halt.lift ((source.normal r.posterior.mean r.posterior.deviation state).map
                fun (x, state) => (Real.exp (min x exponentLimit), state))
  absolute (plain : r.before.kind ≠ .lognormal) (prior : r.before.isRelative = false)
    : r.calibrated.kind = .normal
      ∧ (∀ base env,
          r.calibrated.moments base env = .ok (some (r.posterior.mean, r.posterior.deviation)))
      ∧ ∀ {σ : Type} (source : RandomSource σ ℝ) base env state,
          r.calibrated.draw source base env state
            = Halt.lift (source.normal r.posterior.mean r.posterior.deviation state)
  relative (prior : r.before.isRelative = true)
    : r.calibrated.kind = .normal ∧ r.calibrated.isRelative = true
      ∧ (∀ base env,
          r.calibrated.moments base env = .ok (some (base, |base| * proportion r.posterior)))
      ∧ (r.posterior.mean ≠ 0
          → ∀ env,
              r.calibrated.moments r.posterior.mean env
                = .ok (some (r.posterior.mean, r.posterior.deviation)))
      ∧ ∀ {σ : Type} (source : RandomSource σ ℝ) base env state,
          r.calibrated.draw source base env state
            = Halt.lift (source.normal base (|base| * proportion r.posterior) state)

/-- A relative distribution is normal. -/
theorem plain_of_isRelative {d : Distribution ℝ} (relative : d.isRelative = true)
    : d.kind = .normal := by
  simp only [Distribution.isRelative] at relative
  split at relative
  case h_1 normal _ _ => exact normal
  case h_2 => cases relative

/-- What is carried is read as it was reported. -/
theorem Carries.decodes {s : Scenario ℝ} {declarations : List (Declaration ℝ)} {target : String}
    {r : CalibrationResult ℝ} {place : Nat} {q : Quantity ℝ} {prior : Prior ℝ}
    (carries : Carries s declarations target r place q prior)
    : Decodes r := by
  obtain ⟨-, -, -, ⟨base, read⟩, written, deviation⟩ := carries
  have form := form_of_prior read
  rw [notNegative_real] at deviation
  constructor
  case logarithmic =>
    intro lognormal
    rw [if_pos lognormal] at form
    rw [written, form]
    exact ⟨posterior_kind _ _ _, posterior_parameterValues _ _ _, draw_logarithmic deviation⟩
  case absolute =>
    intro plain absolute
    rw [if_neg plain, absolute, if_neg (by simp)] at form
    rw [written, form]
    exact ⟨posterior_kind _ _ _, moments_absolute deviation, draw_absolute deviation⟩
  case relative =>
    intro relative
    rw [if_neg (by simp [plain_of_isRelative relative]), if_pos relative] at form
    rw [written, form]
    refine ⟨posterior_kind _ _ _, rfl, moments_relative deviation, fun some env => ?_,
      draw_relative deviation⟩
    rw [moments_relative deviation, proportion_mul_mean some]

end Calibration

open Calibration

/-- A calibrated scenario carries what was reported: the target of each report has, at the place of
its declaration, the uncertainty that the report calls calibrated, and simulation reads that back as
the reported posterior. Relative posteriors are read in proportion to the declared value.
Witness: the invariant on reports, and the numbers of which posteriors consist.
-/
theorem Scenario.carries_posterior {s : Scenario ℝ} {observed : Observations ℝ} {window : ℝ}
    {calibrated : Calibrated ℝ} {target : String} {r : CalibrationResult ℝ}
    (done : s.calibrate observed window = .ok calibrated)
    (reported : calibrated.results.lookup target = some r)
    : (∃ place q, placeOf? s.declarations target = some place
          ∧ calibrated.scenario.declarations[place]? = some (.quantity q)
          ∧ q.name = target ∧ q.uncertainty? = some r.calibrated)
        ∧ Decodes r := by
  obtain ⟨-, related, reports⟩ := recalibrates_of_calibrate done
  obtain ⟨place, q, prior, carries⟩ := reports target r reported
  obtain ⟨declared, placed, named, -⟩ := placeOf?_some carries.found
  have alike := (related_of_getElem? related placed carries.placed).alike
  refine ⟨⟨place, q, carries.found, carries.placed, ?_, carries.uncertainty⟩, carries.decodes⟩
  exact (Option.some.inj alike.name).trans named

namespace Market

/-- The report on a price of 100 with a deviation of a fifth, which is seen once at 110. -/
noncomputable def report : CalibrationResult ℝ :=
  ⟨"price", .maximumLikelihood, shares 20, posterior (shares 20) .relative ⟨110, 20⟩, 1, ⟨110, 20⟩⟩

theorem shares_report
    : (market 100 (shares 20) none).calibrate (observed [110]) 2
      = .ok ⟨market 100 report.calibrated (some (shares 20)), [("price", report)], []⟩ := by
  rw [market_calibrate 100 (shares 20) [110] (by norm_num) (by norm_num) (read_shares 100 20) rfl]
  simp only [valuesFor, maximumLikelihood_one, report]
  norm_num

/-- The scenario carries the report. -/
theorem shares_carry_report
    : ∃ calibrated,
        (market 100 (shares 20) none).calibrate (observed [110]) 2 = .ok calibrated
          ∧ calibrated.results.lookup "price" = some report
          ∧ (∃ place q, placeOf? (market 100 (shares 20) none).declarations "price" = some place
              ∧ calibrated.scenario.declarations[place]? = some (.quantity q)
              ∧ q.name = "price" ∧ q.uncertainty? = some report.calibrated)
          ∧ Decodes report :=
  ⟨_, shares_report, rfl, Scenario.carries_posterior shares_report rfl⟩

/-- Around the declared value of 100 the price is not spread as reported, which was by 20 around
110, but by 20 · 100 / 110 around 100.
-/
theorem shares_miss_report
    : ∃ calibrated,
        (market 100 (shares 20) none).calibrate (observed [110]) 2 = .ok calibrated
          ∧ calibrated.results.lookup "price" = some report
          ∧ calibrated.scenario.declarations[0]?
              = some (.quantity (.assumption (price 100 report.calibrated)))
          ∧ baseValue (.assumption (price 100 report.calibrated)) [] = .ok 100
          ∧ report.calibrated.kind ≠ .lognormal
          ∧ report.calibrated.moments 100 []
              ≠ .ok (some (report.posterior.mean, report.posterior.deviation)) := by
  have base : baseValue (.assumption (price 100 report.calibrated)) [] = .ok 100 := by
    simp [baseValue, baseExpression?, price, Expr.magnitude, Expr.value]
  refine ⟨_, shares_report, rfl, rfl, base, by decide, ?_⟩
  have read := moments_relative (d := shares 20) (m := ⟨110, 20⟩) (by norm_num) 100 []
  rw [show report.calibrated = posterior (shares 20) .relative ⟨110, 20⟩ from rfl, read]
  simp [report]

end Market

end Prognosis
