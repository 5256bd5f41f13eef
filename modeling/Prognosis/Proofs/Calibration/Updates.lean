import Mathlib.Algebra.BigOperators.Group.List.Basic
import Mathlib.Analysis.SpecialFunctions.Pow.Real
import Prognosis.Calibration.Posterior
import Prognosis.Proofs.Scalar.Exact

/-! What the methods of calibration make of a prior and observations, in arithmetic without
rounding. A posterior mean is a weighted average of the prior mean and the average of the
observations, so it lies between the two, and precisions add up, so joining more can only sharpen.
-/

namespace Prognosis

-----------------------------------------------------------------------------------------
-- Sums without rounding
-----------------------------------------------------------------------------------------

namespace Sample

theorem foldl_add (values : List ℝ) (start : ℝ)
    : values.foldl (· + ·) start = start + values.sum := by
  rw [List.foldl_eq_foldr, List.sum_eq_foldr]
  induction values with
  | nil => simp
  | cons x rest ih => rw [List.foldr_cons, List.foldr_cons, ih]; ring

/-- Rows that are added leave the sum as it is. -/
theorem sum_addRows (values : List ℝ) {sums : List ℝ} (lanes : sums.length = laneCount)
    : (addRows sums values).1.length = laneCount
      ∧ (addRows sums values).1.sum + (addRows sums values).2.sum = sums.sum + values.sum := by
  fun_induction addRows sums values with
  | case1 sums values short => exact ⟨lanes, rfl⟩
  | case2 sums values long ih =>
      have row : (values.take laneCount).length = laneCount :=
        List.length_take_of_le (Nat.le_of_not_lt long)
      obtain ⟨count, total⟩ := ih (by rw [List.length_zipWith, lanes, row, Nat.min_self])
      refine ⟨count, total.trans ?_⟩
      rw [← List.sum_add_sum_eq_sum_zipWith_of_length_eq _ _ (lanes.trans row.symm), add_assoc,
        ← List.sum_append, List.take_append_drop]

/-- So do neighbours. -/
theorem sum_addNeighbours (sums : List ℝ) : (addNeighbours sums).sum = sums.sum := by
  fun_induction addNeighbours sums with
  | case1 x y rest ih => rw [List.sum_cons, ih, List.sum_cons, List.sum_cons, add_assoc]
  | case2 rest => rfl

theorem blockTotal_real (values : List ℝ) : blockTotal values = values.sum := by
  unfold blockTotal
  split
  case isTrue => rw [Scalar.sum, foldl_add, Scalar.zero_real, zero_add]
  case isFalse long =>
    have row : (values.take laneCount).length = laneCount :=
      List.length_take_of_le (Nat.le_of_not_lt long)
    obtain ⟨count, total⟩ := sum_addRows (values.drop laneCount) row
    dsimp only
    generalize addRows (values.take laneCount) (values.drop laneCount) = rows at count total ⊢
    have joined : ∃ x, addNeighbours (addNeighbours (addNeighbours rows.1)) = [x] := by
      refine List.length_eq_one_iff.mp ?_
      rw [length_addNeighbours, length_addNeighbours, length_addNeighbours, count]
      rfl
    obtain ⟨x, is⟩ := joined
    have all : x = rows.1.sum := by
      rw [← sum_addNeighbours, ← sum_addNeighbours, ← sum_addNeighbours, is, List.sum_singleton]
    rw [is, foldl_add, List.headD_cons, all, total, ← List.sum_append, List.take_append_drop]

/-- In every order of additions the total is the sum. -/
theorem total_real (order : SumOrder) (values : List ℝ) : total order values = values.sum := by
  cases order with
  | sequential => rw [total, Scalar.sum, foldl_add, Scalar.zero_real, zero_add]
  | pairwise =>
      have halves : pairwiseTotal values = values.sum := by
        fun_induction pairwiseTotal values with
        | case1 values short => exact blockTotal_real values
        | case2 values long half first second =>
            rw [first, second, ← List.sum_append, List.take_append_drop]
      rw [total, halves, Scalar.zero_real, zero_add]

end Sample

namespace Calibration

open Prognosis.Distribution (checkedDiv checkedSqrt)

/-- The average of observations. -/
noncomputable def average (values : List ℝ) : ℝ :=
  values.sum / values.length

/-- The variance that observations show around their average, which takes one degree of freedom. -/
noncomputable def shownVariance (values : List ℝ) : ℝ :=
  (values.map fun x => (x - average values) ^ 2).sum / (values.length - 1)

theorem mean_real (values : List ℝ) : Sample.mean values = average values := by
  rw [Sample.mean, Sample.total_real, Scalar.ofNat_real, average]

theorem variance_real {values : List ℝ} (given : values ≠ [])
    : Sample.variance values = shownVariance values := by
  have count : ((values.length - 1 : ℕ) : ℝ) = values.length - 1 :=
    Nat.cast_pred (List.length_pos_iff.mpr given)
  rw [Sample.variance, Sample.total_real, Scalar.ofNat_real, mean_real, count, shownVariance]
  simp only [sq]

/-- The variance that the update takes observations to have: what they show, or the variance of the
prior where that is nothing.
-/
noncomputable def noise (prior : Moments ℝ) (values : List ℝ) : ℝ :=
  if 1 < values.length ∧ 0 < shownVariance values then shownVariance values
  else prior.deviation ^ 2

/-- Precision of prior and observations together. -/
noncomputable def precision (prior : Moments ℝ) (values : List ℝ) : ℝ :=
  1 / prior.deviation ^ 2 + values.length / noise prior values

-----------------------------------------------------------------------------------------
-- The methods in closed form
-----------------------------------------------------------------------------------------

variable {prior : Moments ℝ} {values others : List ℝ}

theorem checkedSquare_real (x : ℝ) : checkedSquare x = .ok (x ^ 2) := by
  simp [checkedSquare, sq]

theorem checkedDiv_real (x : ℝ) {y : ℝ} (nonzero : y ≠ 0) : checkedDiv x y = .ok (x / y) := by
  simp [checkedDiv, nonzero]

theorem checkedSqrt_real {x : ℝ} (nonneg : 0 ≤ x) : checkedSqrt x = .ok √x := by
  simp [checkedSqrt, nonneg]

theorem observationVariance_real (prior : Moments ℝ) (values : List ℝ)
    : observationVariance prior values = .ok (noise prior values) := by
  unfold observationVariance noise
  split
  case h_1 x y rest =>
    have several : 1 < (x :: y :: rest).length := by simp
    simp only [variance_real (List.cons_ne_nil x _), several, true_and, Scalar.le_real,
      Scalar.zero_real, decide_eq_true_eq, checkedSquare_real]
    by_cases shown : 0 < shownVariance (x :: y :: rest)
    · rw [if_neg (not_le.mpr shown), if_pos shown]
    · rw [if_pos (not_lt.mp shown), if_neg shown]
  case h_2 short =>
    have single : ¬ 1 < values.length := by
      match values with
      | [] | [_] => simp
      | x :: y :: rest => exact (short x y rest rfl).elim
    rw [if_neg fun both => single both.1, checkedSquare_real]

theorem noise_pos (spread : 0 < prior.deviation) : 0 < noise prior values := by
  unfold noise
  split
  case isTrue shown => exact shown.2
  case isFalse => positivity

theorem length_pos (given : values ≠ []) : (0 : ℝ) < values.length :=
  Nat.cast_pos.mpr (List.length_pos_iff.mpr given)

theorem precision_pos (spread : 0 < prior.deviation) : 0 < precision prior values :=
  add_pos_of_pos_of_nonneg (by positivity) (div_nonneg (by positivity) (noise_pos spread).le)

/-- Prior and observations are weighted by their precisions. -/
theorem bayesianUpdate_real (spread : 0 < prior.deviation) (given : values ≠ [])
    : bayesianUpdate prior values
      = .ok ⟨(1 / prior.deviation ^ 2 * prior.mean
            + values.length / noise prior values * average values) / precision prior values,
          √(1 / precision prior values)⟩ := by
  have square : prior.deviation ^ 2 ≠ 0 := (pow_pos spread 2).ne'
  have total : 1 / prior.deviation ^ 2 + values.length / noise prior values ≠ 0 :=
    (precision_pos spread).ne'
  have variance : 0 ≤ 1 / (1 / prior.deviation ^ 2 + values.length / noise prior values) :=
    one_div_nonneg.mpr (precision_pos spread).le
  have some : (values.isEmpty || Scalar.le prior.deviation Scalar.zero) = false := by
    simp [given, spread]
  rw [bayesianUpdate, some, if_neg (by simp)]
  simp only [observationVariance_real, checkedSquare_real, bind, Except.bind, Scalar.one_real,
    Scalar.ofNat_real, checkedDiv_real _ square, checkedDiv_real _ (noise_pos spread).ne',
    checkedDiv_real _ total, checkedSqrt_real variance, mean_real, precision]
  rfl

/-- Several observations stand for themselves, and a single one leaves the deviation. -/
theorem maximumLikelihood_real (prior : Moments ℝ) (given : values ≠ [])
    : maximumLikelihood prior values
      = ⟨average values,
          if 1 < values.length then √(shownVariance values) else prior.deviation⟩ := by
  match values with
  | [] => exact absurd rfl given
  | [x] => simp [maximumLikelihood, mean_real]
  | x :: y :: rest => simp [maximumLikelihood, mean_real, variance_real given]

theorem ensembleWeight_real (count : ℕ)
    : (ensembleWeight count : ℝ) = min (7 / 10) ((count : ℝ) / 20) := by
  rw [ensembleWeight, Scalar.least_real, Scalar.ofDecimal_real, Scalar.ofNat_real,
    Scalar.ofNat_real]
  norm_num

theorem ensembleWeight_bounds (count : ℕ)
    : 0 ≤ (ensembleWeight count : ℝ) ∧ (ensembleWeight count : ℝ) ≤ 7 / 10 := by
  rw [ensembleWeight_real]
  exact ⟨le_min (by norm_num) (by positivity), min_le_left _ _⟩

theorem ensemble_real (prior : Moments ℝ) (values : List ℝ)
    : ensemble prior values
      = ⟨prior.mean * (1 - ensembleWeight values.length)
            + average values * ensembleWeight values.length,
          prior.deviation * (1 - ensembleWeight values.length / 2)⟩ := by
  have half : (Scalar.ofDecimal false 5 (-1) : ℝ) = 1 / 2 := by
    rw [Scalar.ofDecimal_real]
    norm_num
  rw [ensemble, half, mean_real, Scalar.one_real, mul_one_div]

-----------------------------------------------------------------------------------------
-- Between prior and observations
-----------------------------------------------------------------------------------------

/-- The number lies between two others, whichever of them is the smaller one. -/
def Between (x y z : ℝ) : Prop :=
  min x y ≤ z ∧ z ≤ max x y

/-- A weighted average lies between what it is taken of. -/
theorem between_blend (x y : ℝ) {w : ℝ} (nonneg : 0 ≤ w) (le_one : w ≤ 1)
    : Between x y (x * (1 - w) + y * w) := by
  have rest : 0 ≤ 1 - w := sub_nonneg.mpr le_one
  constructor
  · calc min x y = min x y * (1 - w) + min x y * w := by ring
      _ ≤ x * (1 - w) + y * w := by gcongr; exacts [min_le_left x y, min_le_right x y]
  · calc x * (1 - w) + y * w ≤ max x y * (1 - w) + max x y * w := by
          gcongr; exacts [le_max_left x y, le_max_right x y]
      _ = max x y := by ring

/-- So it does with weights that are positive and add up to what it is divided by. -/
theorem between_weighted (x y : ℝ) {v w : ℝ} (first : 0 < v) (second : 0 < w)
    : Between x y ((v * x + w * y) / (v + w)) := by
  have all : 0 < v + w := add_pos first second
  have blend : (v * x + w * y) / (v + w) = x * (1 - w / (v + w)) + y * (w / (v + w)) := by
    field_simp
    ring
  rw [blend]
  exact between_blend x y (by positivity) ((div_le_one all).mpr (by linarith))

theorem between_right (x y : ℝ) : Between x y y :=
  ⟨min_le_right x y, le_max_right x y⟩

/-- Every method has a posterior, and its mean lies between prior and observations. -/
theorem update_between (spread : 0 < prior.deviation) (given : values ≠ [])
    (method : CalibrationMethod)
    : ∃ posterior, update method prior values = .ok posterior
        ∧ Between prior.mean (average values) posterior.mean := by
  cases method with
  | bayesianUpdate =>
      refine ⟨_, bayesianUpdate_real spread given, ?_⟩
      exact between_weighted _ _ (by positivity)
        (div_pos (length_pos given) (noise_pos spread))
  | maximumLikelihood =>
      refine ⟨_, congrArg Except.ok (maximumLikelihood_real prior given), ?_⟩
      exact between_right _ _
  | ensemble =>
      obtain ⟨nonneg, bound⟩ := ensembleWeight_bounds values.length
      refine ⟨_, congrArg Except.ok (ensemble_real prior values), ?_⟩
      exact between_blend _ _ nonneg (by linarith)

-----------------------------------------------------------------------------------------
-- The order of observations
-----------------------------------------------------------------------------------------

theorem average_perm (perm : others.Perm values) : average others = average values := by
  rw [average, average, perm.sum_eq, perm.length_eq]

theorem shownVariance_perm (perm : others.Perm values)
    : shownVariance others = shownVariance values := by
  rw [shownVariance, shownVariance, average_perm perm, perm.length_eq, (perm.map _).sum_eq]

theorem noise_perm (perm : others.Perm values) : noise prior others = noise prior values := by
  rw [noise, noise, shownVariance_perm perm, perm.length_eq]

/-- No method looks at the order of observations. -/
theorem update_perm (spread : 0 < prior.deviation) (given : values ≠ [])
    (method : CalibrationMethod) (perm : others.Perm values)
    : update method prior others = update method prior values := by
  have givenToo : others ≠ [] := fun none => given (none ▸ perm).nil_eq.symm
  cases method with
  | bayesianUpdate =>
      rw [update, update, bayesianUpdate_real spread given, bayesianUpdate_real spread givenToo,
        precision, precision, noise_perm perm, average_perm perm, perm.length_eq]
  | maximumLikelihood =>
      rw [update, update, maximumLikelihood_real prior given, maximumLikelihood_real prior givenToo,
        average_perm perm, shownVariance_perm perm, perm.length_eq]
  | ensemble =>
      rw [update, update, ensemble_real, ensemble_real, average_perm perm, perm.length_eq]

-----------------------------------------------------------------------------------------
-- Spreads
-----------------------------------------------------------------------------------------

/-- Numbers that the methods divide by, and that are not zero. -/
structure Divisors (prior : Moments ℝ) (values : List ℝ) : Prop where
  count : (values.length : ℝ) ≠ 0
  freedom : 1 < values.length → ((values.length - 1 : ℕ) : ℝ) ≠ 0
  spread : prior.deviation ^ 2 ≠ 0
  noise : noise prior values ≠ 0
  precision : precision prior values ≠ 0

theorem divisors (spread : 0 < prior.deviation) (given : values ≠ []) : Divisors prior values where
  count := (length_pos given).ne'
  freedom several := Nat.cast_ne_zero.mpr (Nat.sub_pos_of_lt several).ne'
  spread := (pow_pos spread 2).ne'
  noise := (noise_pos spread).ne'
  precision := (precision_pos spread).ne'

/-- Both precisions are smaller than their sum. -/
theorem bayesianUpdate_sharpens (spread : 0 < prior.deviation) (given : values ≠ [])
    : ∃ posterior, bayesianUpdate prior values = .ok posterior
        ∧ posterior.deviation ^ 2 = 1 / precision prior values
        ∧ posterior.deviation ^ 2 < prior.deviation ^ 2
        ∧ posterior.deviation ^ 2 ≤ noise prior values / values.length := by
  have variance : √(1 / precision prior values) ^ 2 = 1 / precision prior values :=
    Real.sq_sqrt (one_div_nonneg.mpr (precision_pos spread).le)
  have own : 0 < 1 / prior.deviation ^ 2 := by positivity
  have shown : 0 < values.length / noise prior values :=
    div_pos (length_pos given) (noise_pos spread)
  refine ⟨_, bayesianUpdate_real spread given, variance, ?_, ?_⟩
  · calc √(1 / precision prior values) ^ 2 = 1 / precision prior values := variance
      _ < 1 / (1 / prior.deviation ^ 2) :=
        one_div_lt_one_div_of_lt own (lt_add_of_pos_right _ shown)
      _ = prior.deviation ^ 2 := one_div_one_div _
  · calc √(1 / precision prior values) ^ 2 = 1 / precision prior values := variance
      _ ≤ 1 / (values.length / noise prior values) :=
        one_div_le_one_div_of_le shown (le_add_of_nonneg_left own.le)
      _ = noise prior values / values.length := one_div_div _ _

theorem ensemble_shrinks (spread : 0 < prior.deviation) (values : List ℝ)
    : 65 / 100 * prior.deviation ≤ (ensemble prior values).deviation
      ∧ (ensemble prior values).deviation ≤ prior.deviation := by
  obtain ⟨nonneg, bound⟩ := ensembleWeight_bounds values.length
  rw [ensemble_real]
  constructor <;> nlinarith

-----------------------------------------------------------------------------------------
-- Updates
-----------------------------------------------------------------------------------------

/-- Updates stay between prior and observations. Whatever the prior mean is, with a prior deviation
above zero and at least one observation, every method has a posterior, whose mean lies between the
prior mean and the average of the observations, and which is the same in every order of the
observations. Nothing is divided by zero. The variance of a Bayesian update is strictly below that
of the prior and at most the variance of the noise divided by the count of observations; an ensemble
keeps at least 65 percent of the deviation and at most all of it.
-/
theorem updates_temper (prior : Moments ℝ) (spread : 0 < prior.deviation) {values : List ℝ}
    (given : values ≠ [])
    : (∀ method, ∃ posterior, update method prior values = .ok posterior
          ∧ Between prior.mean (average values) posterior.mean
          ∧ ∀ others : List ℝ, others.Perm values → update method prior others = .ok posterior)
        ∧ Divisors prior values
        ∧ observationVariance prior values = .ok (noise prior values)
        ∧ (∃ posterior, bayesianUpdate prior values = .ok posterior
          ∧ posterior.deviation ^ 2 = 1 / precision prior values
          ∧ posterior.deviation ^ 2 < prior.deviation ^ 2
          ∧ posterior.deviation ^ 2 ≤ noise prior values / values.length)
        ∧ 65 / 100 * prior.deviation ≤ (ensemble prior values).deviation
        ∧ (ensemble prior values).deviation ≤ prior.deviation := by
  refine ⟨fun method => ?_, divisors spread given, observationVariance_real prior values,
    bayesianUpdate_sharpens spread given, ensemble_shrinks spread values⟩
  obtain ⟨posterior, updated, between⟩ := update_between spread given method
  refine ⟨posterior, updated, between, fun others perm => ?_⟩
  rw [update_perm spread given method perm, updated]

/-- Supposed to be 100 with a deviation of 20, and seen at 110 and at 130, which is a variance of 200
around 120, a price is taken to lie between 100 and 120.
-/
theorem supposed_tempered
    : ∃ posterior : Moments ℝ, update .bayesianUpdate ⟨100, 20⟩ [110, 130] = .ok posterior
        ∧ Between 100 120 posterior.mean
        ∧ update .bayesianUpdate ⟨100, 20⟩ [130, 110] = .ok posterior
        ∧ Divisors ⟨100, 20⟩ [110, 130]
        ∧ observationVariance (⟨100, 20⟩ : Moments ℝ) [110, 130] = .ok 200
        ∧ 65 / 100 * 20 ≤ (ensemble (⟨100, 20⟩ : Moments ℝ) [110, 130]).deviation := by
  have middle : average [110, 130] = 120 := by
    norm_num [average]
  have shown : shownVariance [110, 130] = 200 := by
    norm_num [shownVariance, middle]
  have noisy : noise ⟨100, 20⟩ [110, 130] = 200 := by
    norm_num [noise, shown]
  obtain ⟨means, divisors, used, -, shrunk, -⟩ :=
    updates_temper ⟨100, 20⟩ (by norm_num) (List.cons_ne_nil 110 [130])
  obtain ⟨posterior, updated, between, ordered⟩ := means .bayesianUpdate
  rw [middle] at between
  rw [noisy] at used
  exact ⟨posterior, updated, between, ordered _ (.swap 110 130 []), divisors, used, shrunk⟩

end Calibration

end Prognosis
