import Mathlib
import Prognosis.Proofs.Scalar.Exact
import Prognosis.Proofs.Value.Draw

/-! Draws from triangles, in arithmetic without rounding. A draw turns a unit into a number by the
inverse of the cumulative distribution, which is the area under the triangle up to the number: two
parabolas that meet at the mode.
-/

namespace Prognosis.Distribution

open MeasureTheory Set

-----------------------------------------------------------------------------------------
-- The triangle
-----------------------------------------------------------------------------------------

/-- Density of the triangular distribution: it rises from the lower end to the mode and falls from
there to the upper end, each in a straight line.
-/
noncomputable def density (low mode high x : ℝ) : ℝ :=
  if low < x ∧ x ≤ mode then 2 * (x - low) / ((high - low) * (mode - low))
  else if mode < x ∧ x < high then 2 * (high - x) / ((high - low) * (high - mode))
  else 0

/-- Chance of a number up to the given one: the area under the triangle. -/
noncomputable def cumulative (low mode high x : ℝ) : ℝ :=
  ∫ y in Iic x, density low mode high y

variable {low mode high : ℝ}

/-- Area under a line that rises from a point on. -/
theorem integral_rise (a b c : ℝ) : ∫ y in a..b, 2 * (y - a) / c = (b - a) ^ 2 / c := by
  have slope (y : ℝ) : HasDerivAt (fun y => (y - a) ^ 2 / c) (2 * (y - a) / c) y := by
    simpa using (((hasDerivAt_id y).sub_const a).pow 2).div_const c
  have line : Continuous fun y : ℝ => 2 * (y - a) / c := by fun_prop
  rw [intervalIntegral.integral_eq_sub_of_hasDerivAt (fun y _ => slope y)
    (line.intervalIntegrable _ _)]
  simp

/-- Area under a line that falls to a point. -/
theorem integral_fall (a b c d : ℝ)
    : ∫ y in a..b, 2 * (d - y) / c = (d - a) ^ 2 / c - (d - b) ^ 2 / c := by
  have slope (y : ℝ) : HasDerivAt (fun y => -((d - y) ^ 2 / c)) (2 * (d - y) / c) y := by
    refine ((((hasDerivAt_id y).const_sub d).pow 2).div_const c).neg.congr_deriv ?_
    simp only [id_eq]
    ring
  have line : Continuous fun y : ℝ => 2 * (d - y) / c := by fun_prop
  rw [intervalIntegral.integral_eq_sub_of_hasDerivAt (fun y _ => slope y)
    (line.intervalIntegrable _ _)]
  ring

/-- There is no area below the lower end. -/
theorem cumulative_eq_integral (above : low ≤ mode) {x : ℝ} (inside : low ≤ x)
    : cumulative low mode high x = ∫ y in low..x, density low mode high y := by
  rw [intervalIntegral.integral_of_le inside, cumulative]
  refine setIntegral_eq_of_subset_of_forall_sdiff_eq_zero measurableSet_Iic Ioc_subset_Iic_self ?_
  rintro y ⟨upTo, outside⟩
  have below : y ≤ low := not_lt.mp fun lt => outside ⟨lt, upTo⟩
  rw [density, if_neg fun both => both.1.not_ge below,
    if_neg fun both => both.1.not_ge (below.trans above)]

theorem density_rising {x : ℝ} (inside : x ∈ Ioc low mode)
    : density low mode high x = 2 * (x - low) / ((high - low) * (mode - low)) :=
  if_pos inside

/-- At the upper end the falling line is at zero, as the density is behind it. -/
theorem density_falling {x : ℝ} (inside : x ∈ Ioc mode high)
    : density low mode high x = 2 * (high - x) / ((high - low) * (high - mode)) := by
  rw [density, if_neg fun both => both.2.not_gt inside.1]
  rcases inside.2.lt_or_eq with lt | rfl
  · rw [if_pos ⟨inside.1, lt⟩]
  · simp

theorem integral_rising {x : ℝ} (inside : x ∈ Icc low mode)
    : ∫ y in low..x, density low mode high y = (x - low) ^ 2 / ((high - low) * (mode - low)) := by
  rw [← integral_rise, intervalIntegral.integral_of_le inside.1,
    intervalIntegral.integral_of_le inside.1]
  exact setIntegral_congr_fun measurableSet_Ioc fun y under =>
    density_rising ⟨under.1, under.2.trans inside.2⟩

theorem integral_falling {x : ℝ} (inside : x ∈ Icc mode high)
    : ∫ y in mode..x, density low mode high y
      = (high - mode) ^ 2 / ((high - low) * (high - mode))
        - (high - x) ^ 2 / ((high - low) * (high - mode)) := by
  rw [← integral_fall, intervalIntegral.integral_of_le inside.1,
    intervalIntegral.integral_of_le inside.1]
  exact setIntegral_congr_fun measurableSet_Ioc fun y under =>
    density_falling ⟨under.1, under.2.trans inside.2⟩

theorem integrable_rising (bounds : low ≤ mode)
    : IntervalIntegrable (density low mode high) volume low mode := by
  have line : Continuous fun y : ℝ => 2 * (y - low) / ((high - low) * (mode - low)) := by fun_prop
  refine (line.intervalIntegrable low mode).congr fun y under => ?_
  rw [uIoc_of_le bounds] at under
  exact (density_rising under).symm

theorem integrable_falling {x : ℝ} (inside : x ∈ Icc mode high)
    : IntervalIntegrable (density low mode high) volume mode x := by
  have line : Continuous fun y : ℝ => 2 * (high - y) / ((high - low) * (high - mode)) := by fun_prop
  refine (line.intervalIntegrable mode x).congr fun y under => ?_
  rw [uIoc_of_le inside.1] at under
  exact (density_falling ⟨under.1, under.2.trans inside.2⟩).symm

/-- Up to the mode the cumulative distribution is a parabola that opens upwards. -/
theorem cumulative_rising {x : ℝ} (inside : x ∈ Icc low mode)
    : cumulative low mode high x = (x - low) ^ 2 / ((high - low) * (mode - low)) := by
  rw [cumulative_eq_integral (inside.1.trans inside.2) inside.1, integral_rising inside]

/-- From the mode on the cumulative distribution falls short of one by a parabola. A side of the
triangle that is upright has no area of its own.
-/
theorem cumulative_falling (above : low ≤ mode) (room : low < high) {x : ℝ}
    (inside : x ∈ Icc mode high)
    : cumulative low mode high x = 1 - (high - x) ^ 2 / ((high - low) * (high - mode)) := by
  have share (side : ℝ) : side ^ 2 / ((high - low) * side) = side / (high - low) := by
    rcases eq_or_ne side 0 with rfl | leans
    · simp
    · rw [sq, mul_div_mul_right _ _ leans]
  have width : high - low ≠ 0 := (sub_pos.mpr room).ne'
  rw [cumulative_eq_integral above (above.trans inside.1),
    ← intervalIntegral.integral_add_adjacent_intervals (integrable_rising above)
      (integrable_falling inside),
    integral_rising ⟨above, le_rfl⟩, integral_falling inside, share, share, ← add_sub_assoc,
    ← add_div, sub_add_sub_cancel', div_self width]

-----------------------------------------------------------------------------------------
-- Its inverse
-----------------------------------------------------------------------------------------

/-- The number that a unit stands for. -/
noncomputable def quantile (low mode high u : ℝ) : ℝ :=
  if u < (mode - low) / (high - low) then low + √(u * (high - low) * (mode - low))
  else high - √((1 - u) * (high - low) * (high - mode))

/-- The ends are in order around the mode and leave room between them. -/
structure IsTriangle (low mode high : ℝ) : Prop where
  above : low ≤ mode
  below : mode ≤ high
  room : low < high

namespace IsTriangle

variable (triangle : IsTriangle low mode high) {u v : ℝ}

include triangle

theorem width_pos : 0 < high - low := sub_pos.mpr triangle.room

theorem rise_nonneg (unit : 0 ≤ u) : 0 ≤ u * (high - low) * (mode - low) :=
  mul_nonneg (mul_nonneg unit triangle.width_pos.le) (sub_nonneg.mpr triangle.above)

theorem fall_nonneg (unit : u ≤ 1) : 0 ≤ (1 - u) * (high - low) * (high - mode) :=
  mul_nonneg (mul_nonneg (sub_nonneg.mpr unit) triangle.width_pos.le)
    (sub_nonneg.mpr triangle.below)

/-- Units before the cut stay below the mode. -/
theorem rise_le (before : u < (mode - low) / (high - low))
    : √(u * (high - low) * (mode - low)) ≤ mode - low := by
  have less : u * (high - low) ≤ mode - low := ((lt_div_iff₀ triangle.width_pos).mp before).le
  have side : 0 ≤ mode - low := sub_nonneg.mpr triangle.above
  refine Real.sqrt_le_iff.mpr ⟨side, ?_⟩
  rw [sq]
  exact mul_le_mul_of_nonneg_right less side

/-- Units from the cut on stay above the mode. -/
theorem fall_le (behind : ¬u < (mode - low) / (high - low))
    : √((1 - u) * (high - low) * (high - mode)) ≤ high - mode := by
  have more : mode - low ≤ u * (high - low) :=
    (div_le_iff₀ triangle.width_pos).mp (not_lt.mp behind)
  have side : 0 ≤ high - mode := sub_nonneg.mpr triangle.below
  refine Real.sqrt_le_iff.mpr ⟨side, ?_⟩
  rw [sq]
  refine mul_le_mul_of_nonneg_right ?_ side
  linarith

theorem quantile_rising (before : u < (mode - low) / (high - low))
    : quantile low mode high u ∈ Icc low mode := by
  rw [quantile, if_pos before]
  have root := triangle.rise_le before
  exact ⟨le_add_of_nonneg_right (Real.sqrt_nonneg _), by linarith⟩

theorem quantile_falling (behind : ¬u < (mode - low) / (high - low))
    : quantile low mode high u ∈ Icc mode high := by
  rw [quantile, if_neg behind]
  have root := triangle.fall_le behind
  exact ⟨by linarith, sub_le_self _ (Real.sqrt_nonneg _)⟩

theorem quantile_inside : quantile low mode high u ∈ Icc low high := by
  by_cases before : u < (mode - low) / (high - low)
  · exact Icc_subset_Icc_right triangle.below (triangle.quantile_rising before)
  · exact Icc_subset_Icc_left triangle.above (triangle.quantile_falling before)

theorem cumulative_quantile (unit : u ∈ Icc 0 1)
    : cumulative low mode high (quantile low mode high u) = u := by
  have width := triangle.width_pos
  by_cases before : u < (mode - low) / (high - low)
  · -- A unit before the cut is one only where the rising side leans.
    have side : 0 < mode - low := (div_pos_iff_of_pos_right width).mp (unit.1.trans_lt before)
    rw [cumulative_rising (triangle.quantile_rising before), quantile, if_pos before,
      add_sub_cancel_left, Real.sq_sqrt (triangle.rise_nonneg unit.1)]
    field_simp
  · rw [cumulative_falling triangle.above triangle.room (triangle.quantile_falling before),
      quantile, if_neg before, sub_sub_cancel, Real.sq_sqrt (triangle.fall_nonneg unit.2)]
    rcases triangle.below.lt_or_eq with lt | rfl
    · have side : 0 < high - mode := sub_pos.mpr lt
      field_simp
      ring
    · -- The mode is the upper end, so that the cut is at one.
      rw [div_self width.ne', not_lt] at before
      simp [unit.2.antisymm before]

theorem quantile_mono (le : u ≤ v) : quantile low mode high u ≤ quantile low mode high v := by
  have width := triangle.width_pos.le
  by_cases before : v < (mode - low) / (high - low)
  · rw [quantile, quantile, if_pos before, if_pos (le.trans_lt before)]
    have side := sub_nonneg.mpr triangle.above
    gcongr
  by_cases first : u < (mode - low) / (high - low)
  · exact (triangle.quantile_rising first).2.trans (triangle.quantile_falling before).1
  · rw [quantile, quantile, if_neg before, if_neg first]
    have side := sub_nonneg.mpr triangle.below
    gcongr

end IsTriangle

/-- A draw takes the number that its unit stands for. -/
theorem IsTriangle.triangular_eq (triangle : IsTriangle low mode high) {σ : Type}
    (source : RandomSource σ ℝ) (s : σ) (unit : (source.unit s).1 ∈ Icc 0 1)
    : triangular source low mode high s
      = .ok (quantile low mode high (source.unit s).1, (source.unit s).2) := by
  have rise := triangle.rise_nonneg unit.1
  have fall := triangle.fall_nonneg unit.2
  have apart : ¬high ≤ low := triangle.room.not_ge
  by_cases before : (source.unit s).1 < (mode - low) / (high - low)
  · simp [triangular, apart, before, quantile, checkedSqrt, rise.not_gt, Except.map]
  · simp [triangular, apart, before, quantile, checkedSqrt, fall.not_gt, Except.map]

/-- Draws invert the triangular distribution. Neither of the roots is one of a negative number, nor
is there a division by zero: where the mode is one of the ends, the side of the triangle that stands
upright is not drawn from. What is drawn lies between the ends, grows with the unit, and is the
number up to which the distribution has the chance that the unit says.

Witness: `leaning_triangle_inverted`
-/
theorem triangular_inverts (above : low ≤ mode) (below : mode ≤ high) (room : low < high)
    : high - low ≠ 0
      ∧ (∀ u ∈ Ico (0 : ℝ) 1,
        0 ≤ u * (high - low) * (mode - low) ∧ 0 ≤ (1 - u) * (high - low) * (high - mode)
        ∧ (mode = low → ¬u < (mode - low) / (high - low))
        ∧ (mode = high → u < (mode - low) / (high - low)))
      ∧ ∃ inverse : ℝ → ℝ,
        MonotoneOn inverse (Ico 0 1)
        ∧ (∀ u ∈ Ico (0 : ℝ) 1,
          inverse u ∈ Icc low high ∧ cumulative low mode high (inverse u) = u)
        ∧ ∀ {σ : Type} (source : RandomSource σ ℝ) (s : σ), (source.unit s).1 ∈ Ico (0 : ℝ) 1 →
            triangular source low mode high s
              = .ok (inverse (source.unit s).1, (source.unit s).2) := by
  have triangle : IsTriangle low mode high := ⟨above, below, room⟩
  have width : high - low ≠ 0 := triangle.width_pos.ne'
  refine ⟨width, fun u unit => ⟨triangle.rise_nonneg unit.1, triangle.fall_nonneg unit.2.le, ?_, ?_⟩,
    quantile low mode high, fun u _ v _ le => triangle.quantile_mono le,
    fun u unit => ⟨triangle.quantile_inside, triangle.cumulative_quantile ⟨unit.1, unit.2.le⟩⟩,
    fun source s unit => triangle.triangular_eq source s ⟨unit.1, unit.2.le⟩⟩
  · rintro rfl
    simpa using unit.1
  · rintro rfl
    simpa [div_self width] using unit.2

/-- A source that always draws the same. -/
def steadySource (u : ℝ) : RandomSource Unit ℝ where
  stream _ _ _ := ()
  unit s := (u, s)
  gauss s := (u, s)
  beta _ _ s := (u, s)

/-- From two to ten by way of four, a sixteenth stands for three: a sixteenth of the area of the
triangle lies below.
-/
theorem leaning_triangle_inverted
    : triangular (steadySource (1 / 16)) 2 4 10 () = .ok (3, ()) ∧ cumulative 2 4 10 3 = 1 / 16 := by
  have unit : (1 / 16 : ℝ) ∈ Ico 0 1 := by norm_num
  obtain ⟨-, -, inverse, -, inverts, draws⟩ :=
    triangular_inverts (show (2 : ℝ) ≤ 4 by norm_num) (show (4 : ℝ) ≤ 10 by norm_num) (by norm_num)
  have drawn : triangular (steadySource (1 / 16)) 2 4 10 () = .ok (3, ()) := by
    have before : (1 / 16 : ℝ) < (4 - 2) / (10 - 2) := by norm_num
    have square : (1 / 16 * (10 - 2) * (4 - 2) : ℝ) = 1 := by norm_num
    have value : quantile 2 4 10 (1 / 16) = 3 := by
      rw [quantile, if_pos before, square, Real.sqrt_one]
      norm_num
    have triangle : IsTriangle 2 4 10 := ⟨by norm_num, by norm_num, by norm_num⟩
    rw [triangle.triangular_eq _ _ ⟨unit.1, unit.2.le⟩]
    exact congrArg (fun x => Except.ok (x, ())) value
  have three : inverse (1 / 16) = 3 := by
    simpa [steadySource] using (draws (steadySource (1 / 16)) () unit).symm.trans drawn
  exact ⟨drawn, three ▸ (inverts _ unit).2⟩

end Prognosis.Distribution
