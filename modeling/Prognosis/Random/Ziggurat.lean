import Prognosis.Random.Generator
import Prognosis.Random.Strips

/-! Normal, exponential, gamma and beta numbers. Candidates are drawn and refused until one is
taken; each is taken with a fair chance, so the bound on their number is never met.
-/

namespace Prognosis.Ziggurat

open Generator

/-- Bound on the number of candidates. -/
def patience : Nat :=
  100000

/-- Entry of a table of bit patterns as a number. -/
def entry (table : Array UInt64) (i : Nat) : Float :=
  Float.ofBits (table.getD i 0)

/-- Start of the tail of the normal density. -/
def normalTail : Float :=
  3.6541528853610087963519472518

/-- Reciprocal of the start of the tail of the normal density. -/
def normalTailInverse : Float :=
  0.27366123732975827203338247596

/-- Start of the tail of the exponential density. -/
def exponentialTail : Float :=
  7.6971174701310497140446280481

/-- How far behind the start of the tail a normal number lies. -/
def tailExcess : Nat → Generator → Float × Generator
  | 0, g => (0.0, g)
  | fuel + 1, g =>
      let (u, g) := g.unit
      let (v, g) := g.unit
      let x := -normalTailInverse * Double.logOnePlus (-u)
      let y := -Double.logOnePlus (-v)
      if x * x < y + y then (x, g) else tailExcess fuel g

/-- A number of the standard normal distribution. -/
def gaussFrom : Nat → Generator → Float × Generator
  | 0, g => (0.0, g)
  | fuel + 1, g =>
      let (r, g) := g.next
      let strip := (r &&& 0xff).toNat
      let negative := (r >>> 8) &&& 1 == 1
      let candidate := (r >>> 9) &&& 0xfffffffffffff
      let size := candidate.toFloat * entry normalWidths strip
      let x := if negative then -size else size
      if candidate < normalBounds.getD strip 0 then (x, g)
      else if strip == 0 then
        let (excess, g) := tailExcess patience g
        let far := normalTail + excess
        (if (candidate >>> 8) &&& 1 == 1 then -far else far, g)
      else
        let (u, g) := g.unit
        let low := entry normalHeights strip
        let high := entry normalHeights (strip - 1)
        if (high - low) * u + low < Float.exp (-0.5 * x * x) then (x, g) else gaussFrom fuel g

/-- A number of the standard normal distribution. -/
def gauss (g : Generator) : Float × Generator :=
  gaussFrom patience g

/-- A number of the standard exponential distribution, with a bound on the candidates. -/
def exponentialFrom : Nat → Generator → Float × Generator
  | 0, g => (0.0, g)
  | fuel + 1, g =>
      let (r, g) := g.next
      let r := r >>> 3
      let strip := (r &&& 0xff).toNat
      let candidate := r >>> 8
      let x := candidate.toFloat * entry exponentialWidths strip
      if candidate < exponentialBounds.getD strip 0 then (x, g)
      else
        let (u, g) := g.unit
        if strip == 0 then (exponentialTail - Double.logOnePlus (-u), g)
        else
          let low := entry exponentialHeights strip
          let high := entry exponentialHeights (strip - 1)
          if (high - low) * u + low < Float.exp (-x) then (x, g) else exponentialFrom fuel g

/-- A number of the standard exponential distribution. -/
def exponential (g : Generator) : Float × Generator :=
  exponentialFrom patience g

/-- A gamma number of a shape below one. -/
def smallGamma (shape : Float) : Nat → Generator → Float × Generator
  | 0, g => (0.0, g)
  | fuel + 1, g =>
      let (u, g) := g.unit
      let (v, g) := exponential g
      if u ≤ 1.0 - shape then
        let x := Float.pow u (1.0 / shape)
        if x ≤ v then (x, g) else smallGamma shape fuel g
      else
        let y := -Float.log ((1.0 - u) / shape)
        let x := Float.pow (1.0 - shape + shape * y) (1.0 / shape)
        if x ≤ v + y then (x, g) else smallGamma shape fuel g

/-- A normal number with the factor `1 + c * x` that goes with it, which must be positive. -/
def positiveFactor (c : Float) : Nat → Generator → (Float × Float) × Generator
  | 0, g => ((0.0, 1.0), g)
  | fuel + 1, g =>
      let (x, g) := gauss g
      let v := 1.0 + c * x
      if v ≤ 0.0 then positiveFactor c fuel g else ((x, v), g)

/-- A gamma number of a shape above one. -/
def largeGamma (shape : Float) : Nat → Generator → Float × Generator
  | 0, g => (shape, g)
  | fuel + 1, g =>
      let b := shape - 1.0 / 3.0
      let c := 1.0 / Float.sqrt (9.0 * b)
      let ((x, factor), g) := positiveFactor c patience g
      let v := factor * factor * factor
      let (u, g) := g.unit
      if u < 1.0 - 0.0331 * (x * x) * (x * x) then (b * v, g)
      else if Float.log u < 0.5 * x * x + b * (1.0 - v + Float.log v) then (b * v, g)
      else largeGamma shape fuel g

/-- A number of the standard gamma distribution. -/
def gamma (shape : Float) (g : Generator) : Float × Generator :=
  if shape == 1.0 then exponential g
  else if shape < 1.0 then smallGamma shape patience g
  else largeGamma shape patience g

/-- A beta number with both parameters at most one. -/
def smallBeta (a b : Float) : Nat → Generator → Float × Generator
  | 0, g => (0.5, g)
  | fuel + 1, g =>
      let (u, g) := g.unit
      let (v, g) := g.unit
      let x := Float.pow u (1.0 / a)
      let y := Float.pow v (1.0 / b)
      let s := x + y
      if s ≤ 1.0 && 0.0 < u + v then
        if 0.0 < x && 0.0 < y then (x / s, g)
        else
          -- both powers were too small, so their ratio is taken from the logarithms
          let d := Float.log u / a - Float.log v / b
          if 0.0 < d then (Float.exp (-Double.logOnePlus (Float.exp (-d))), g)
          else (Float.exp (d - Double.logOnePlus (Float.exp d)), g)
      else smallBeta a b fuel g

/-- Parameters below which beta numbers have no room left between zero and one. -/
def tinyBeta : Float :=
  3e-103

/-- A number of the beta distribution. With two tiny parameters it is one in as many cases as the
first parameter has of their sum, and zero otherwise.
-/
def beta (a b : Float) (g : Generator) : Float × Generator :=
  if a < tinyBeta && b < tinyBeta then
    let (u, g) := g.unit
    (if (a + b) * u < a then 1.0 else 0.0, g)
  else if a ≤ 1.0 && b ≤ 1.0 then smallBeta a b patience g
  else
    let (x, g) := gamma a g
    let (y, g) := gamma b g
    (x / (x + y), g)

end Prognosis.Ziggurat
