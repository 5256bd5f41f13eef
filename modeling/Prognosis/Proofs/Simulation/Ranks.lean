import Prognosis.Proofs.Scalar.Exact
import Prognosis.Simulation.Summary

/-! What statistics say of the values of a sample, in arithmetic without rounding. Percentiles, the
least and the greatest value are told by their ranks among the defined values, so that they are in
order and do not depend on the order of the runs.
-/

namespace Prognosis

-----------------------------------------------------------------------------------------
-- Ranks
-----------------------------------------------------------------------------------------

/-- A value has a rank among others, counted from one: fewer than so many are smaller, and at least
so many are not greater.
-/
structure IsRanked (values : List EReal) (rank : Nat) (x : EReal) : Prop where
  listed : x ∈ values
  above : values.countP (· < x) < rank
  reached : rank ≤ values.countP (· ≤ x)

namespace IsRanked

variable {values others : List EReal} {j k : Nat} {x y : EReal}

/-- Values are in the order of their ranks. -/
theorem mono (first : IsRanked values j x) (second : IsRanked values k y) (le : j ≤ k)
    : x ≤ y := by
  by_contra more
  have less : y < x := not_le.mp more
  have fewer : values.countP (· ≤ y) ≤ values.countP (· < x) :=
    List.countP_mono_left fun a _ below =>
      decide_eq_true ((of_decide_eq_true below).trans_lt less)
  have above := first.above
  have reached := second.reached
  omega

/-- There is one value of a rank. -/
theorem unique (first : IsRanked values k x) (second : IsRanked values k y)
    : x = y :=
  le_antisymm (first.mono second le_rfl) (second.mono first le_rfl)

theorem perm (ranked : IsRanked values k x) (perm : others.Perm values)
    : IsRanked others k x :=
  ⟨perm.mem_iff.mpr ranked.listed, by rw [perm.countP_eq]; exact ranked.above,
    by rw [perm.countP_eq]; exact ranked.reached⟩

/-- A value in order has the rank that counts the values up to it. -/
theorem of_sorted {front rest : List EReal} (ordered : (front ++ x :: rest).Pairwise (· ≤ ·))
    : IsRanked (front ++ x :: rest) (front.length + 1) x := by
  have parts := List.pairwise_append.mp ordered
  have behind := List.pairwise_cons.mp parts.2.1
  refine ⟨by simp, ?_, ?_⟩
  · have none : (x :: rest).countP (· < x) = 0 := by
      refine List.countP_eq_zero.mpr (List.forall_mem_cons.mpr ⟨by simp, fun a later => ?_⟩)
      simpa using behind.1 a later
    rw [List.countP_append, none]
    exact Nat.lt_succ_of_le List.countP_le_length
  · have all : front.countP (· ≤ x) = front.length :=
      List.countP_eq_length.mpr fun a before =>
        decide_eq_true (parts.2.2 a before x List.mem_cons_self)
    rw [List.countP_append, all, List.countP_cons_of_pos (by simp)]
    omega

/-- A value that none is below has the first rank. -/
theorem of_least (listed : x ∈ values) (least : ∀ a ∈ values, x ≤ a)
    : IsRanked values 1 x := by
  refine ⟨listed, ?_, ?_⟩
  · rw [List.countP_eq_zero.mpr fun a among => by simpa using least a among]
    exact Nat.one_pos
  · exact List.countP_pos_iff.mpr ⟨x, listed, decide_eq_true le_rfl⟩

/-- A value that none exceeds has the last rank. -/
theorem of_greatest (listed : x ∈ values) (greatest : ∀ a ∈ values, a ≤ x)
    : IsRanked values values.length x := by
  refine ⟨listed, ?_, ?_⟩
  · refine lt_of_le_of_ne List.countP_le_length fun all => ?_
    have less := List.countP_eq_length.mp all x listed
    exact lt_irrefl x (of_decide_eq_true less)
  · rw [List.countP_eq_length.mpr fun a among => decide_eq_true (greatest a among)]

end IsRanked

namespace Sample

open Precise (defined number)

-----------------------------------------------------------------------------------------
-- The defined values
-----------------------------------------------------------------------------------------

/-- The defined values of a sample. -/
def numbers (values : List Precise) : List EReal :=
  values.filterMap fun
    | .defined x => some x
    | .undefined => none

theorem definedOnes_eq (values : List Precise)
    : definedOnes values = (numbers values).map defined := by
  induction values with
  | nil => rfl
  | cons value values ih =>
      cases value with
      | defined x => simpa [definedOnes, numbers] using ih
      | undefined => simpa [definedOnes, numbers] using ih

theorem numbers_perm {values others : List Precise} (perm : others.Perm values)
    : (numbers others).Perm (numbers values) :=
  perm.filterMap _

/-- Defined values in ascending order. -/
noncomputable def inOrder (xs : List EReal) : List EReal :=
  xs.mergeSort fun x y => x ≤ y

theorem ascending_eq (xs : List EReal)
    : ascending (xs.map defined) = (inOrder xs).map defined :=
  (List.map_mergeSort fun x _ y _ => (Precise.le_defined x y).symm).symm

theorem inOrder_perm (xs : List EReal)
    : (inOrder xs).Perm xs :=
  List.mergeSort_perm xs _

theorem inOrder_sorted (xs : List EReal)
    : (inOrder xs).Pairwise (· ≤ ·) := by
  have sorted
      : (inOrder xs).Pairwise fun x y => Decidable.decide (x ≤ y) = true :=
    List.pairwise_mergeSort (by simpa using fun a b c => le_trans) (by simpa using le_total) xs
  exact sorted.imp of_decide_eq_true

/-- The order of the runs does not show in the values in order. -/
theorem inOrder_eq_of_perm {xs ys : List EReal} (perm : xs.Perm ys)
    : inOrder xs = inOrder ys :=
  List.Perm.eq_of_pairwise (fun _ _ _ _ => le_antisymm) (inOrder_sorted xs) (inOrder_sorted ys)
    ((inOrder_perm xs).trans (perm.trans (inOrder_perm ys).symm))

/-- The value at a place among the values in order. -/
theorem inOrder_ranked {xs : List EReal} {place : Nat} (inside : place < xs.length)
    : ∃ x, (inOrder xs)[place]? = some x ∧ IsRanked xs (place + 1) x := by
  have bound : place < (inOrder xs).length := by rwa [(inOrder_perm xs).length_eq]
  have split := List.take_append_drop place (inOrder xs)
  rw [List.drop_eq_getElem_cons bound] at split
  have ranked := IsRanked.of_sorted (split ▸ inOrder_sorted xs)
  rw [split, List.length_take_of_le bound.le] at ranked
  exact ⟨_, List.getElem?_eq_getElem bound, ranked.perm (inOrder_perm xs).symm⟩

-----------------------------------------------------------------------------------------
-- The least and the greatest value
-----------------------------------------------------------------------------------------

/-- Picking one of two values again and again leaves one that precedes all. -/
theorem foldl_picks (pick : Precise → Precise → Precise) (precedes : EReal → EReal → Prop)
    (refl : ∀ x, precedes x x) (trans : ∀ x y z, precedes x y → precedes y z → precedes x z)
    (picks
      : ∀ x y, ∃ z,
          pick (defined x) (defined y) = defined z ∧ (z = x ∨ z = y)
            ∧ precedes z x ∧ precedes z y)
    (x : EReal) (rest : List EReal)
    : ∃ z,
        (rest.map defined).foldl pick (defined x) = defined z ∧ z ∈ x :: rest
          ∧ ∀ a ∈ x :: rest, precedes z a := by
  induction rest generalizing x with
  | nil => exact ⟨x, rfl, by simp, by simpa using refl x⟩
  | cons y rest ih =>
      obtain ⟨z, picked, from_, first, second⟩ := picks x y
      obtain ⟨least, found, listed, least_le⟩ := ih z
      have below := List.forall_mem_cons.mp least_le
      refine ⟨least, by rw [List.map_cons, List.foldl_cons, picked, found], ?_, ?_⟩
      · rcases List.mem_cons.mp listed with rfl | later
        · rcases from_ with rfl | rfl <;> simp
        · simp [later]
      · refine List.forall_mem_cons.mpr ⟨trans _ z _ below.1 first, ?_⟩
        exact List.forall_mem_cons.mpr ⟨trans _ z _ below.1 second, below.2⟩

theorem smallest_ranked {xs : List EReal} (given : xs ≠ [])
    : ∃ x, smallest (xs.map defined) = defined x ∧ IsRanked xs 1 x := by
  cases xs with
  | nil => exact absurd rfl given
  | cons x rest =>
      obtain ⟨least, found, listed, below⟩ := foldl_picks
        (fun x y => if Scalar.lt x y then x else y) (· ≤ ·) le_refl (fun _ _ _ => le_trans)
        (fun x y => by
          rw [Precise.lt_defined]
          rcases lt_or_ge x y with less | more
          · exact ⟨x, by simp [less], Or.inl rfl, le_rfl, less.le⟩
          · exact ⟨y, by simp [more.not_gt], Or.inr rfl, more, le_rfl⟩) x rest
      exact ⟨least, found, .of_least listed below⟩

theorem largest_ranked {xs : List EReal} (given : xs ≠ [])
    : ∃ x, largest (xs.map defined) = defined x ∧ IsRanked xs xs.length x := by
  cases xs with
  | nil => exact absurd rfl given
  | cons x rest =>
      obtain ⟨greatest, found, listed, above⟩ := foldl_picks
        (fun x y => if Scalar.lt y x then x else y) (· ≥ ·) le_refl (fun _ _ _ => ge_trans)
        (fun x y => by
          rw [Precise.lt_defined]
          rcases lt_or_ge y x with less | more
          · exact ⟨x, by simp [less], Or.inl rfl, le_rfl, less.le⟩
          · exact ⟨y, by simp [more.not_gt], Or.inr rfl, more, le_rfl⟩) x rest
      exact ⟨greatest, found, .of_greatest listed above⟩

/-- A value picked by its rank does not depend on the order of the runs. -/
theorem pick_eq_of_perm {pick : List Precise → Precise} (rank : Nat → Nat)
    (ranked
      : ∀ xs : List EReal, xs ≠ []
        → ∃ x, pick (xs.map defined) = defined x ∧ IsRanked xs (rank xs.length) x)
    {xs ys : List EReal} (perm : xs.Perm ys)
    : pick (xs.map defined) = pick (ys.map defined) := by
  by_cases none : ys = []
  · subst none
    rw [List.perm_nil.mp perm]
  · obtain ⟨x, found, first⟩ := ranked xs fun empty => none (List.perm_nil.mp (empty ▸ perm).symm)
    obtain ⟨y, other, second⟩ := ranked ys none
    rw [perm.length_eq] at first
    rw [found, other, first.unique (second.perm perm)]

-----------------------------------------------------------------------------------------
-- Places of percentiles
-----------------------------------------------------------------------------------------

theorem truncate_number (x : ℝ)
    : Scalar.truncate? (number x) = some (if x < 0 then -⌊-x⌋ else ⌊x⌋) := by
  have parts : Scalar.parts (number x) = .finite (Decidable.decide (x < 0)) ⌊|x|⌋₊ 0 := by
    change Precise.parts (number x) = _
    simp [Precise.parts, number]
  rw [Scalar.truncate?, parts]
  simp only [Decimal.Parts.truncate?, Decimal.Ratio.ofBinary, Decimal.Ratio.floor]
  by_cases negative : x < 0
  · simp [negative, abs_of_neg negative, Int.natCast_floor_eq_floor (neg_nonneg.mpr negative.le)]
  · simp [negative, abs_of_nonneg (not_lt.mp negative),
      Int.natCast_floor_eq_floor (not_lt.mp negative)]

theorem ceiling_number (x : ℝ)
    : ceiling (number x) = ⌈x⌉ := by
  simp only [ceiling, truncate_number, Option.getD_some, Precise.ofInt_number, Precise.lt_number,
    decide_eq_true_eq]
  by_cases negative : x < 0
  · rw [if_pos negative, Int.floor_neg, neg_neg, if_neg (Int.le_ceil x).not_gt]
  · rw [if_neg negative]
    split
    case isTrue fraction =>
      symm
      rw [Int.ceil_eq_iff]
      push_cast
      exact ⟨by linarith, (Int.lt_floor_add_one x).le⟩
    case isFalse whole =>
      symm
      rw [Int.ceil_eq_iff]
      exact ⟨by linarith [Int.floor_le x], not_lt.mp whole⟩

theorem shareOf_number (p : ℝ)
    : shareOf (number p) = number (p / 100) := by
  rw [shareOf, Precise.ofNat_number, Precise.div_number p (by norm_num)]
  norm_num

theorem rank_lt {count : Nat} (some : 0 < count) (share : Precise)
    : rank count share < count :=
  (Nat.min_le_right _ _).trans_lt (Nat.sub_lt some Nat.one_pos)

theorem rank_number {count : Nat} {p : ℝ} (some : 0 < count) (low : 0 ≤ p) (high : p ≤ 100)
    : rank count (shareOf (number p)) + 1 = max 1 ⌈p / 100 * count⌉₊ := by
  have nonneg : 0 ≤ p / 100 * count := by positivity
  have bound : ⌈p / 100 * count⌉₊ ≤ count := by
    refine Nat.ceil_le.mpr (mul_le_of_le_one_left (Nat.cast_nonneg _) ?_)
    linarith
  have whole : ⌈(count : ℝ) * (p / 100) - 1⌉ = (⌈p / 100 * count⌉₊ : Int) - 1 := by
    rw [Int.ceil_sub_one, mul_comm, Int.natCast_ceil_eq_ceil nonneg]
  simp only [rank, shareOf_number, Precise.ofNat_number, Precise.one_number, Precise.mul_number,
    Precise.sub_number, ceiling_number, whole]
  omega

-----------------------------------------------------------------------------------------
-- Sums of zeros
-----------------------------------------------------------------------------------------

section Zeros

variable {values sums : List Precise}

theorem zero_add_zero
    : (Scalar.zero + Scalar.zero : Precise) = Scalar.zero := by
  rw [Precise.zero_number, Precise.add_number, add_zero]

theorem foldl_zeros (zeros : ∀ x ∈ values, x = Scalar.zero)
    : values.foldl (· + ·) Scalar.zero = Scalar.zero := by
  induction values with
  | nil => rfl
  | cons x rest ih =>
      have both := List.forall_mem_cons.mp zeros
      rw [List.foldl_cons, both.1, zero_add_zero, ih both.2]

theorem addRows_zeros (sums values : List Precise) (first : ∀ x ∈ sums, x = Scalar.zero)
    (zeros : ∀ x ∈ values, x = Scalar.zero)
    : (∀ x ∈ (addRows sums values).1, x = Scalar.zero)
        ∧ ∀ x ∈ (addRows sums values).2, x = Scalar.zero := by
  fun_induction addRows sums values with
  | case1 sums values short => exact ⟨first, zeros⟩
  | case2 sums values long ih =>
      refine ih ?_ fun x listed => zeros x (List.mem_of_mem_drop listed)
      intro x listed
      obtain ⟨i, bound, rfl⟩ := List.mem_iff_getElem.mp listed
      rw [List.getElem_zipWith, first _ (List.getElem_mem _),
        zeros _ (List.mem_of_mem_take (List.getElem_mem _)), zero_add_zero]

theorem addNeighbours_zeros (zeros : ∀ x ∈ sums, x = Scalar.zero)
    : ∀ x ∈ addNeighbours sums, x = Scalar.zero := by
  fun_induction addNeighbours sums with
  | case1 x y rest ih =>
      have both := List.forall_mem_cons.mp zeros
      have others := List.forall_mem_cons.mp both.2
      refine List.forall_mem_cons.mpr ⟨?_, ih others.2⟩
      rw [both.1, others.1, zero_add_zero]
  | case2 rest => exact zeros

theorem blockTotal_zeros (zeros : ∀ x ∈ values, x = Scalar.zero)
    : blockTotal values = Scalar.zero := by
  unfold blockTotal
  split
  case isTrue => exact foldl_zeros zeros
  case isFalse =>
    have lanes := addRows_zeros (values.take laneCount) (values.drop laneCount)
      (fun x listed => zeros x (List.mem_of_mem_take listed))
      (fun x listed => zeros x (List.mem_of_mem_drop listed))
    have joined := addNeighbours_zeros (addNeighbours_zeros (addNeighbours_zeros lanes.1))
    have head : ∀ sums : List Precise, (∀ x ∈ sums, x = Scalar.zero)
        → sums.headD Scalar.zero = Scalar.zero := by
      intro sums all
      cases sums with
      | nil => rfl
      | cons x _ => exact all x List.mem_cons_self
    dsimp only
    rw [head _ joined]
    exact foldl_zeros lanes.2

theorem pairwiseTotal_zeros (zeros : ∀ x ∈ values, x = Scalar.zero)
    : pairwiseTotal values = Scalar.zero := by
  fun_induction pairwiseTotal values with
  | case1 values short => exact blockTotal_zeros zeros
  | case2 values long half first second =>
      rw [first fun x listed => zeros x (List.mem_of_mem_take listed),
        second fun x listed => zeros x (List.mem_of_mem_drop listed), zero_add_zero]

/-- In every order of additions zeros add up to zero. -/
theorem total_zeros (order : SumOrder) (zeros : ∀ x ∈ values, x = Scalar.zero)
    : total order values = Scalar.zero := by
  cases order with
  | sequential => exact foldl_zeros zeros
  | pairwise => rw [total, pairwiseTotal_zeros zeros, zero_add_zero]

end Zeros

end Sample

-----------------------------------------------------------------------------------------
-- Statistics of a sample
-----------------------------------------------------------------------------------------

namespace Summary

open Precise (defined number)
open Sample (numbers)

/-- Statistics give the values of their ranks. The values of a sample are the defined ones and those
left out. If some are defined, each percentile is the defined value of its rank, as are the least
and the greatest value. If none is defined, no statistic is.
-/
structure GivesRanks (percentiles : List ℝ) (values : List Precise) (s : Summary Precise)
    : Prop where
  counted : s.undefinedCount + (numbers values).length = values.length
  ranked
    : numbers values ≠ []
      → ∀ p ∈ percentiles, ∃ x,
          s.percentile? (number p) = some (defined x)
            ∧ IsRanked (numbers values) (max 1 ⌈p / 100 * (numbers values).length⌉₊) x
  extremes
    : numbers values ≠ []
      → ∃ low high,
          s.least = defined low ∧ IsRanked (numbers values) 1 low
            ∧ s.greatest = defined high ∧ IsRanked (numbers values) (numbers values).length high
  undefined
    : numbers values = []
      → s.mean = .undefined ∧ s.median = .undefined ∧ s.deviation = .undefined
        ∧ s.least = .undefined ∧ s.greatest = .undefined
        ∧ ∀ p ∈ percentiles, s.percentile? (number p) = some .undefined

/-- Statistics that give the values of their ranks, and what follows from that: percentiles lie
between the least and the greatest value, are in order, and at their ends are these two.
-/
structure Describes (percentiles : List ℝ) (values : List Precise) (s : Summary Precise)
    : Prop extends GivesRanks percentiles values s where
  between
    : numbers values ≠ []
      → ∀ p ∈ percentiles, ∀ x ∈ s.percentile? (number p),
          Scalar.le s.least x = true ∧ Scalar.le x s.greatest = true
  monotone
    : numbers values ≠ []
      → ∀ p ∈ percentiles, ∀ q ∈ percentiles, p ≤ q
      → ∀ x ∈ s.percentile? (number p), ∀ y ∈ s.percentile? (number q),
          Scalar.le x y = true
  ends
    : numbers values ≠ []
      → (0 ∈ percentiles → s.percentile? (number 0) = some s.least)
        ∧ (100 ∈ percentiles → s.percentile? (number 100) = some s.greatest)

variable {percentiles : List ℝ} {values : List Precise} {s : Summary Precise}

theorem GivesRanks.describes (gives : GivesRanks percentiles values s)
    (within : ∀ p ∈ percentiles, 0 ≤ p ∧ p ≤ 100)
    : Describes percentiles values s where
  toGivesRanks := gives
  between := by
    intro given p listed x found
    obtain ⟨y, here, rank⟩ := gives.ranked given p listed
    obtain ⟨low, high, least, first, greatest, last⟩ := gives.extremes given
    cases found.symm.trans here
    rw [least, greatest, Precise.le_defined, Precise.le_defined]
    have upTo : p / 100 * (numbers values).length ≤ (numbers values).length :=
      mul_le_of_le_one_left (Nat.cast_nonneg _) (by linarith [(within p listed).2])
    have pos := List.length_pos_iff.mpr given
    exact ⟨decide_eq_true (first.mono rank (le_max_left _ _)),
      decide_eq_true (rank.mono last (max_le pos (Nat.ceil_le.mpr upTo)))⟩
  monotone := by
    intro given p first q second le x foundX y foundY
    obtain ⟨a, hereX, rankX⟩ := gives.ranked given p first
    obtain ⟨b, hereY, rankY⟩ := gives.ranked given q second
    cases foundX.symm.trans hereX
    cases foundY.symm.trans hereY
    refine decide_eq_true (rankX.mono rankY (max_le_max_left 1 (Nat.ceil_mono ?_)))
    gcongr
  ends := by
    intro given
    obtain ⟨low, high, least, first, greatest, last⟩ := gives.extremes given
    constructor
    · intro listed
      obtain ⟨x, here, rank⟩ := gives.ranked given 0 listed
      rw [zero_div, zero_mul, Nat.ceil_zero] at rank
      rw [here, least, rank.unique first]
    · intro listed
      obtain ⟨x, here, rank⟩ := gives.ranked given 100 listed
      have pos := List.length_pos_iff.mpr given
      rw [div_self (by norm_num), one_mul, Nat.ceil_natCast, max_eq_right pos] at rank
      rw [here, greatest, rank.unique last]

-----------------------------------------------------------------------------------------
-- Percentiles as they are looked up
-----------------------------------------------------------------------------------------

theorem eq_number_iff {x : Precise} {p : ℝ}
    : Scalar.eq x (number p) = true ↔ x = number p := by
  cases x with
  | defined x => simp [number]
  | undefined => exact iff_of_false Bool.false_ne_true (by simp [number])

theorem mem_distinct (done rest : List Precise) {p : ℝ} (listed : number p ∈ done ++ rest)
    : number p ∈ distinct done rest := by
  fun_induction distinct done rest with
  | case1 done => simpa using listed
  | case2 done q rest known ih =>
      refine ih ?_
      rcases List.mem_append.mp listed with before | here
      · exact List.mem_append_left _ before
      · rcases List.mem_cons.mp here with same | later
        · obtain ⟨x, among, equal⟩ := List.any_eq_true.mp known
          rw [← same] at equal
          exact List.mem_append_left _ (eq_number_iff.mp equal ▸ among)
        · exact List.mem_append_right _ later
  | case3 done q rest new ih => exact ih (by simpa using listed)

/-- The value that is looked up for a percentile that was asked for. -/
theorem percentile?_eq {asked sorted : List Precise} {p : ℝ} (listed : number p ∈ asked)
    (reports
      : s.percentiles = (distinct [] asked).map fun q => (q, Sample.percentile sorted q))
    : s.percentile? (number p) = some (Sample.percentile sorted (number p)) := by
  have known := mem_distinct [] asked (p := p) (by simpa using listed)
  rw [percentile?, reports, List.find?_map, Option.map_map]
  cases found : (distinct [] asked).find?
      ((fun r => Scalar.eq r.1 (number p)) ∘ fun q => (q, Sample.percentile sorted q)) with
  | none =>
      have apart := List.find?_eq_none.mp found (number p) known
      exact absurd (eq_number_iff.mpr rfl) apart
  | some q =>
      have same : q = number p := by
        have equal := List.find?_some found
        exact eq_number_iff.mp equal
      simp [same]

-----------------------------------------------------------------------------------------
-- Aggregation
-----------------------------------------------------------------------------------------

theorem isPercentile_number {p : ℝ} (within : 0 ≤ p ∧ p ≤ 100)
    : Sample.isPercentile (number p) = true := by
  have nonneg : 0 ≤ p / 100 := div_nonneg within.1 (by norm_num)
  have bound : p / 100 ≤ 1 := (div_le_one (by norm_num)).mpr within.2
  simp [Sample.isPercentile, Sample.shareOf_number, nonneg, bound]

/-- The statistics of a sample, told by its defined values. -/
noncomputable def ofNumbers (order : SumOrder) (percentiles : List ℝ) (values : List Precise)
    : Summary Precise :=
  let given := (numbers values).map defined
  let sorted := (Sample.inOrder (numbers values)).map defined
  let mean := Sample.definedMean order values
  {
    mean := mean
    median := Sample.median values.length sorted
    deviation := Sample.definedDeviation order values mean
    least := Sample.smallest given
    greatest := Sample.largest given
    percentiles :=
      (distinct [] (percentiles.map number)).map fun p => (p, Sample.percentile sorted p)
    undefinedCount := values.length - (numbers values).length
  }

theorem ofValues_eq (order : SumOrder) (within : ∀ p ∈ percentiles, 0 ≤ p ∧ p ≤ 100)
    (values : List Precise)
    : ofValues order (percentiles.map number) values
      = .ok (ofNumbers order percentiles values) := by
  have valid : (percentiles.map number).all Sample.isPercentile = true := by
    simpa using fun p listed => isPercentile_number (within p listed)
  simp only [ofValues, valid, Bool.not_true, Bool.false_eq_true, if_false, Sample.definedOnes_eq,
    Sample.ascending_eq, List.length_map, ofNumbers]

theorem percentile?_ofNumbers (order : SumOrder) {p : ℝ} (asked : p ∈ percentiles)
    : (ofNumbers order percentiles values).percentile? (number p)
      = some (Sample.percentile ((Sample.inOrder (numbers values)).map defined) (number p)) :=
  percentile?_eq (List.mem_map_of_mem asked) rfl

/-- Where no value is defined, zero is divided by their count, which is zero. -/
theorem share_undefined (order : SumOrder) (f : Precise → Precise) (none : numbers values = [])
    : Sample.definedTotal order f values / Scalar.ofNat (Sample.definedOnes values).length
      = .undefined := by
  have total : Sample.definedTotal order f values = Scalar.zero := by
    refine Sample.total_zeros order (List.forall_mem_map.mpr fun x listed => ?_)
    have missing := List.filterMap_eq_nil_iff.mp none x listed
    cases x with
    | defined x => cases missing
    | undefined => rfl
  rw [total, Sample.definedOnes_eq, none, List.map_nil, List.length_nil, Precise.ofNat_number,
    Precise.zero_number, Nat.cast_zero]
  exact if_pos (Or.inl ⟨rfl, rfl⟩)

/-- Where no value is defined, nothing adds up to a statistic. -/
theorem ofNumbers_undefined (order : SumOrder) (none : numbers values = [])
    : (ofNumbers order percentiles values).mean = .undefined
        ∧ (ofNumbers order percentiles values).median = .undefined
        ∧ (ofNumbers order percentiles values).deviation = .undefined
        ∧ (ofNumbers order percentiles values).least = .undefined
        ∧ (ofNumbers order percentiles values).greatest = .undefined
        ∧ ∀ p ∈ percentiles,
            (ofNumbers order percentiles values).percentile? (number p) = some .undefined := by
  refine ⟨share_undefined order id none, ?_, ?_, ?_, ?_, ?_⟩
  · simp only [ofNumbers, none, Sample.inOrder, List.mergeSort_nil, List.map_nil]
    rfl
  · exact congrArg Scalar.sqrt (share_undefined order _ none)
  · simp only [ofNumbers, none, List.map_nil]
    rfl
  · simp only [ofNumbers, none, List.map_nil]
    rfl
  · intro p asked
    simp only [percentile?_ofNumbers order asked, none, Sample.inOrder, List.mergeSort_nil,
      List.map_nil]
    rfl

theorem ofNumbers_givesRanks (order : SumOrder) (within : ∀ p ∈ percentiles, 0 ≤ p ∧ p ≤ 100)
    (values : List Precise)
    : GivesRanks percentiles values (ofNumbers order percentiles values) := by
  refine ⟨?_, ?_, ?_, ofNumbers_undefined order⟩
  · exact Nat.sub_add_cancel (List.length_filterMap_le _ _)
  · intro given p asked
    have pos := List.length_pos_iff.mpr given
    have place := Sample.rank_number pos (within p asked).1 (within p asked).2
    have bound := Sample.rank_lt pos (Sample.shareOf (number p))
    obtain ⟨x, entry, ranked⟩ := Sample.inOrder_ranked bound
    rw [place] at ranked
    refine ⟨x, ?_, ranked⟩
    rw [percentile?_ofNumbers order asked, Sample.percentile, List.length_map,
      (Sample.inOrder_perm _).length_eq, List.getElem?_map, entry]
    rfl
  · intro given
    obtain ⟨low, lowest, first⟩ := Sample.smallest_ranked given
    obtain ⟨high, highest, last⟩ := Sample.largest_ranked given
    exact ⟨low, high, lowest, first, highest, last⟩

/-- The order of the runs shows in means and spreads only, where values are added in that order. -/
theorem ofNumbers_eq_of_perm (order : SumOrder) (percentiles : List ℝ)
    {values others : List Precise} (perm : others.Perm values)
    : (ofNumbers order percentiles others).percentiles
          = (ofNumbers order percentiles values).percentiles
        ∧ (ofNumbers order percentiles others).median
          = (ofNumbers order percentiles values).median
        ∧ (ofNumbers order percentiles others).least
          = (ofNumbers order percentiles values).least
        ∧ (ofNumbers order percentiles others).greatest
          = (ofNumbers order percentiles values).greatest
        ∧ (ofNumbers order percentiles others).undefinedCount
          = (ofNumbers order percentiles values).undefinedCount := by
  have perm' := Sample.numbers_perm perm
  have sorted := Sample.inOrder_eq_of_perm perm'
  refine ⟨?_, ?_, ?_, ?_, ?_⟩
  · simp only [ofNumbers, sorted]
  · simp only [ofNumbers, sorted, perm.length_eq]
  · exact Sample.pick_eq_of_perm (fun _ => 1) (fun _ => Sample.smallest_ranked) perm'
  · exact Sample.pick_eq_of_perm id (fun _ => Sample.largest_ranked) perm'
  · simp only [ofNumbers, perm.length_eq, perm'.length_eq]

end Summary

/-- Statistics of any sample with any percentiles exist and give the values of their ranks, which do
not depend on the order of the runs. Witness: `aggregation_gives_ranks_two`.
-/
theorem aggregation_gives_ranks (order : SumOrder) (percentiles : List ℝ)
    (within : ∀ p ∈ percentiles, 0 ≤ p ∧ p ≤ 100) (values : List Precise)
    : ∃ s,
        Summary.ofValues order (percentiles.map Precise.number) values = .ok s
          ∧ s.Describes percentiles values
          ∧ ∀ others, others.Perm values
            → ∃ t,
                Summary.ofValues order (percentiles.map Precise.number) others = .ok t
                  ∧ t.percentiles = s.percentiles ∧ t.median = s.median ∧ t.least = s.least
                  ∧ t.greatest = s.greatest ∧ t.undefinedCount = s.undefinedCount := by
  have gives := Summary.ofNumbers_givesRanks order within values
  refine ⟨_, Summary.ofValues_eq order within values, gives.describes within, ?_⟩
  intro others perm
  exact ⟨_, Summary.ofValues_eq order within others,
    Summary.ofNumbers_eq_of_perm order percentiles perm⟩

/-- Two runs with values and one without, whose hundredth percentile is the greatest value. -/
theorem aggregation_gives_ranks_two
    : (∀ p ∈ ([0, 50, 100] : List ℝ), 0 ≤ p ∧ p ≤ 100)
        ∧ ∃ s,
            Summary.ofValues .pairwise (([0, 50, 100] : List ℝ).map Precise.number)
                [.defined 2, .undefined, .defined ⊤]
              = .ok s
            ∧ s.percentile? (.number 100) = some s.greatest ∧ s.undefinedCount + 2 = 3 := by
  have within : ∀ p ∈ ([0, 50, 100] : List ℝ), 0 ≤ p ∧ p ≤ 100 := by norm_num
  obtain ⟨s, made, describes, _⟩ :=
    aggregation_gives_ranks .pairwise [0, 50, 100] within [.defined 2, .undefined, .defined ⊤]
  exact ⟨within, s, made, (describes.ends (by simp [Sample.numbers])).2 (by simp),
    by simpa [Sample.numbers] using describes.counted⟩

end Prognosis
