import Prognosis.Fault
import Prognosis.Scalar

/-! Statistics of the values that runs gave to a quantity at one point in time: sums, means, spreads
and ranks. Undefined values are counted and left out. Rounding makes the order of additions show, so
it is a choice: from the first value to the last, or by halves, which keeps the rounding errors of
long samples small.
-/

namespace Prognosis

variable {α : Type} [Scalar α]

/-- Order in which the values of a sample are added. -/
inductive SumOrder where
  | sequential
  | pairwise
  deriving Repr, DecidableEq

namespace Sample

/-- Count of the sums that a block is spread over. -/
def laneCount : Nat := 8

/-- Largest count of values that are not halved. -/
def blockSize : Nat := 128

/-- Rows of values added to sums side by side, with the values that fill no row. -/
def addRows (sums values : List α) : List α × List α :=
  if values.length < laneCount then (sums, values)
  else addRows (List.zipWith (· + ·) sums (values.take laneCount)) (values.drop laneCount)
termination_by values.length
decreasing_by simp only [List.length_drop, laneCount] at *; omega

/-- Sums of neighbours. -/
def addNeighbours : List α → List α
  | x :: y :: rest => (x + y) :: addNeighbours rest
  | rest => rest

/-- Sum of a block: of the sums side by side, joined by neighbours, and the values left over. -/
def blockTotal (values : List α) : α :=
  if values.length < laneCount then Scalar.sum values
  else
    let (lanes, rest) := addRows (values.take laneCount) (values.drop laneCount)
    let joined := addNeighbours (addNeighbours (addNeighbours lanes))
    rest.foldl (· + ·) (joined.headD Scalar.zero)

/-- Sum by halves, each of which fills its rows, down to blocks. -/
def pairwiseTotal (values : List α) : α :=
  if values.length ≤ blockSize then blockTotal values
  else
    let half := values.length / 2 / laneCount * laneCount
    pairwiseTotal (values.take half) + pairwiseTotal (values.drop half)
termination_by values.length
decreasing_by
  all_goals
    simp only [blockSize, laneCount, List.length_take, List.length_drop] at *
    omega

/-- Sum of values, starting from zero. -/
def total : SumOrder → List α → α
  | .sequential, values => Scalar.sum values
  | .pairwise, values => Scalar.zero + pairwiseTotal values

/-- Adding neighbours leaves half as many sums. -/
theorem length_addNeighbours (sums : List α)
    : (addNeighbours sums).length = (sums.length + 1) / 2 := by
  fun_induction addNeighbours sums with
  | case1 x y rest ih =>
      simp only [List.length_cons, ih]
      omega
  | case2 rest short =>
      match rest with
      | [] => simp
      | [_] => simp
      | x :: y :: others => exact absurd rfl (short x y others)

-----------------------------------------------------------------------------------------
-- Means, spreads and ranks
-----------------------------------------------------------------------------------------

/-- The values that are defined, in their order. -/
def definedOnes (values : List α) : List α :=
  values.filter fun x => !Scalar.isUndefined x

/-- Values in ascending order. -/
def ascending (values : List α) : List α :=
  values.mergeSort Scalar.le

/-- Arithmetic mean; undefined without values. -/
def mean (values : List α) : α :=
  total .pairwise values / Scalar.ofNat values.length

/-- Sum of a function over the defined values, each at its place in the sample. -/
def definedTotal (order : SumOrder) (f : α → α) (values : List α) : α :=
  total order (values.map fun x => if Scalar.isUndefined x then Scalar.zero else f x)

/-- Arithmetic mean of the defined values; undefined without any. -/
def definedMean (order : SumOrder) (values : List α) : α :=
  definedTotal order id values / Scalar.ofNat (definedOnes values).length

/-- Standard deviation of the defined values around their mean; undefined without any. -/
def definedDeviation (order : SumOrder) (values : List α) (mean : α) : α :=
  let squares := definedTotal order (fun x => (x - mean) * (x - mean)) values
  Scalar.sqrt (squares / Scalar.ofNat (definedOnes values).length)

/-- The smallest value; of equal ones the last. -/
def smallest : List α → α
  | [] => Scalar.undefined
  | x :: rest => rest.foldl (fun found y => if Scalar.lt found y then found else y) x

/-- The largest value; of equal ones the last. -/
def largest : List α → α
  | [] => Scalar.undefined
  | x :: rest => rest.foldl (fun found y => if Scalar.lt y found then found else y) x

/-- Size of samples from which on a value that is alone in the middle is taken as it is. In
smaller ones it counts for both sides of the middle.
-/
def loneMiddleSize : Nat := 600

/-- The middle of the ordered values of a sample of the given size: halfway between the values
at its two sides.
-/
def median (size : Nat) (sorted : List α) : α :=
  let upper := sorted[sorted.length / 2]?.getD Scalar.undefined
  let halfway (lower : α) : α := Scalar.sum [lower, upper] / Scalar.ofNat 2
  if sorted.length % 2 == 0 then
    halfway (sorted[sorted.length / 2 - 1]?.getD Scalar.undefined)
  else if size < loneMiddleSize then halfway upper
  else Scalar.sum [upper]

/-- The whole number at a number or above it. -/
def ceiling (x : α) : Int :=
  let whole := (Scalar.truncate? x).getD 0
  if Scalar.lt (Scalar.ofInt whole) x then whole + 1 else whole

/-- Place of a share among ordered values: the first one that at least that share of all values
does not exceed.
-/
def rank (count : Nat) (share : α) : Nat :=
  let place := ceiling (Scalar.ofNat count * share - Scalar.one)
  min place.toNat (count - 1)

/-- Share that a percentile stands for. -/
def shareOf (percentile : α) : α :=
  percentile / Scalar.ofNat 100

/-- The percentile lies from zero to a hundred. -/
def isPercentile (percentile : α) : Bool :=
  Scalar.le Scalar.zero (shareOf percentile) && Scalar.le (shareOf percentile) Scalar.one

/-- Value of a percentile among ordered values. -/
def percentile (sorted : List α) (p : α) : α :=
  sorted[rank sorted.length (shareOf p)]?.getD Scalar.undefined

end Sample

-----------------------------------------------------------------------------------------
-- Summaries
-----------------------------------------------------------------------------------------

/-- Statistics of a sample. -/
structure Summary (α : Type) where
  mean : α
  median : α
  deviation : α
  least : α
  greatest : α
  /-- Percentiles with their values. -/
  percentiles : List (α × α)
  /-- Count of the values that were left out. -/
  undefinedCount : Nat

namespace Summary

/-- Percentiles without repetition. -/
def distinct : List α → List α → List α
  | done, [] => done
  | done, p :: rest =>
      if done.any (Scalar.eq · p) then distinct done rest else distinct (done ++ [p]) rest

/-- Statistics of values, where all percentiles must lie from zero to a hundred. -/
def ofValues (order : SumOrder) (percentiles : List α) (values : List α)
    : Except Fault (Summary α) :=
  if !percentiles.all Sample.isPercentile then .error .domain
  else
    let defined := Sample.definedOnes values
    let sorted := Sample.ascending defined
    let mean := Sample.definedMean order values
    .ok {
      mean := mean
      median := Sample.median values.length sorted
      deviation := Sample.definedDeviation order values mean
      least := Sample.smallest defined
      greatest := Sample.largest defined
      percentiles := (distinct [] percentiles).map fun p => (p, Sample.percentile sorted p)
      undefinedCount := values.length - defined.length
    }

/-- Value of a percentile, if it was asked for. -/
def percentile? (s : Summary α) (p : α) : Option α :=
  (s.percentiles.find? fun (q, _) => Scalar.eq q p).map (·.2)

end Summary

end Prognosis
