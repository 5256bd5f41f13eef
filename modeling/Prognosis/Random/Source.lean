import Prognosis.Fault
import Prognosis.Scalar

/-! Sources of random numbers. What is drawn is a function of the state of a stream, and every
stream belongs to one quantity in one run.
-/

namespace Prognosis

/-- Streams of random numbers with states of type `σ`. -/
structure RandomSource (σ α : Type) where
  /-- The stream of a quantity, by the seed, the number of the run and the quantity's name. -/
  stream : Int → Int → String → σ
  /-- A number from zero, included, to one, excluded. -/
  unit : σ → α × σ
  /-- A number of the standard normal distribution. -/
  gauss : σ → α × σ
  /-- A number of the beta distribution with positive or undefined parameters. -/
  beta : α → α → σ → α × σ

namespace RandomSource

variable {σ α : Type} [Scalar α]

/-- The number carries a minus sign; an undefined one carries none. -/
def carriesMinus (x : α) : Bool :=
  match Scalar.parts x with
  | .finite negative _ _ => negative
  | .infinite negative => negative
  | .nan => false

/-- A number between two bounds, whose difference must be finite and not negative. -/
def uniform (source : RandomSource σ α) (low high : α) (s : σ) : Except Fault (α × σ) :=
  let width := high - low
  if !Scalar.isFinite width then .error .overflow
  else if carriesMinus width then .error .domain
  else
    let (u, s) := source.unit s
    .ok (low + width * u, s)

/-- A number of a normal distribution, whose spread must not be negative. -/
def normal (source : RandomSource σ α) (mean spread : α) (s : σ) : Except Fault (α × σ) :=
  if carriesMinus spread then .error .domain
  else
    let (z, s) := source.gauss s
    .ok (mean + spread * z, s)

/-- A number of a beta distribution, whose parameters must not be zero or negative. -/
def betaNumber (source : RandomSource σ α) (a b : α) (s : σ) : Except Fault (α × σ) :=
  if Scalar.le a Scalar.zero || Scalar.le b Scalar.zero then .error .domain
  else .ok (source.beta a b s)

end RandomSource

end Prognosis
