import Prognosis.Calibration.Posterior
import Prognosis.Notice
import Prognosis.Observation.Series
import Prognosis.Settings
import Prognosis.Syntax.Render

/-! Calibration of a scenario: declared uncertainties are corrected by observations. What comes
out is another scenario, in which each calibration remembers the prior that it started from, so
that calibrating once more changes nothing.
-/

namespace Prognosis

variable {α : Type} [Scalar α]

/-- Report of the calibration of a target. -/
structure CalibrationResult (α : Type) where
  target : String
  method : CalibrationMethod
  before : Distribution α
  calibrated : Distribution α
  /-- Count of the observations that were used. -/
  pointsUsed : Nat
  posterior : Calibration.Moments α

/-- View of a report. -/
def CalibrationResult.view (r : CalibrationResult α) : Json α :=
  .record [
    ("target", .text r.target),
    ("method", .text r.method.word),
    ("original", .text r.before.toText),
    ("calibrated", .text r.calibrated.toText),
    ("data_points_used", .whole r.pointsUsed),
    ("posterior_mean", .number r.posterior.mean),
    ("posterior_std", .number r.posterior.deviation)
  ]

/-- The uncertainty of a named value. -/
def Quantity.uncertainty? : Quantity α → Option (Distribution α)
  | .assumption a => a.uncertainty
  | .varying v => v.uncertainty
  | .parameter p => p.uncertainty
  | .impact _ => none

/-- The named value with another uncertainty. -/
def Quantity.withUncertainty (d : Distribution α) : Quantity α → Quantity α
  | .assumption a => .assumption { a with uncertainty := some d }
  | .varying v => .varying { v with uncertainty := some d }
  | .parameter p => .parameter { p with uncertainty := some d }
  | .impact i => .impact i

namespace Calibration

/-- Place of the first declaration of a name that can have an uncertainty. -/
def placeOf? (declarations : List (Declaration α)) (name : String) : Option Nat :=
  declarations.findIdx? fun d =>
    match d with
    | .quantity q => q.name == name && q.kind != .impact
    | _ => false

/-- The values that are at most a window older than the latest one. -/
def windowValues (points : List (ObservedPoint α)) (window : α) : List α :=
  match points.getLast? with
  | none => []
  | some latest =>
      let start := latest.date.yearFraction - window - Scalar.ofDecimal false 1 (-9)
      (points.filter fun p => Scalar.le start p.date.yearFraction).map (·.value)

/-- The expression that a quantity is assumed to be worth today: its value, or the last of its
anchors.
-/
def baseExpression? : Quantity α → Option (Expr α)
  | .assumption a => a.value
  | .parameter p => p.value
  | .varying v => v.anchors.getLast?.map (·.value)
  | .impact _ => none

/-- Value that a prior surrounds: the declared one, or where it is zero or unknown the mean of
the observations.
-/
def baseValue (q : Quantity α) (values : List α) : Except Fault α := do
  let declared ←
    match baseExpression? q with
    | none => .ok Scalar.zero
    | some e =>
        match e.magnitude [] with
        | .ok x => .ok x
        | .error (.error _) => .ok Scalar.zero
        | .error (.fault fault) => .error fault
  return if Scalar.isTrue declared || values.isEmpty then declared else Sample.mean values

/-- What a calibration has come to: the declarations, the reports, and what is worth noting. -/
structure Progress (α : Type) where
  declarations : List (Declaration α)
  results : Entries (CalibrationResult α)
  notices : List (Notice α)

namespace Progress

/-- Adds a notice. -/
def note (p : Progress α) (notice : Notice α) : Progress α :=
  { p with notices := p.notices ++ [notice] }

end Progress

/-- Values as a prior of the given form reads them: logarithms for a logarithmic one. -/
def valuesFor (form : PriorForm) (values : List α) : List α :=
  match form with
  | .logarithmic => (values.filter fun x => Scalar.lt Scalar.zero x).map Scalar.log
  | _ => values

/-- Carries out the calibration at a place, with the distribution that it starts from and the
values in its window.
-/
def calibrateWith (progress : Progress α) (place targetPlace : Nat) (c : Calibrate α)
    (q : Quantity α) (d : Distribution α) (values : List α) : Except Fault (Progress α) := do
  let target := c.target.text
  let base ← baseValue q values
  match Prior.ofDistribution? d base with
  | .error (.fault fault) => .error fault
  | .error (.error e) => return progress.note (.priorNotEvaluated target e)
  | .ok none => return progress
  | .ok (some prior) =>
      let values := valuesFor prior.form values
      if values.isEmpty then return progress.note (.nothingPositive target)
      let method := c.method.getD .bayesianUpdate
      let moments ← update method prior.moments values
      let calibrated := posterior d prior.form moments
      let replaced :=
        progress.declarations.set targetPlace (.quantity (q.withUncertainty calibrated))
      let remembered :=
        if c.prior.isNone then replaced.set place (.calibrate { c with prior := some d })
        else replaced
      let result : CalibrationResult α :=
        ⟨target, method, d, calibrated, values.length, moments⟩
      return { progress with
        declarations := remembered
        results := progress.results.put target result }

/-- Carries out the calibration at a place, if its target has observations in the window. -/
def calibrateAt (declared : List (Declaration α)) (observed : Observations α) (window : α)
    (progress : Progress α) (place : Nat) (c : Calibrate α) : Except Fault (Progress α) :=
  let target := c.target.text
  match (observed.lookup target).map (·.points) with
  | none => .ok progress
  | some [] => .ok progress
  | some points =>
      match placeOf? declared target with
      | none => .ok (progress.note (.nothingToCalibrate target))
      | some targetPlace =>
          match (progress.declarations[targetPlace]?).bind (·.quantity?) with
          | none => .ok progress
          | some q =>
              match c.prior.or q.uncertainty? with
              | none => .ok (progress.note (.noPrior target))
              | some d =>
                  let years := (c.window.map Duration.years).getD window
                  let values := windowValues points years
                  if values.isEmpty then .ok progress
                  else calibrateWith progress place targetPlace c q d values

/-- Carries out the calibrations among declarations from a place on. -/
def calibrateFrom (declared : List (Declaration α)) (observed : Observations α) (window : α)
    (progress : Progress α) (place : Nat)
    : List (Declaration α) → Except Fault (Progress α)
  | [] => .ok progress
  | .calibrate c :: rest =>
      match calibrateAt declared observed window progress place c with
      | .error fault => .error fault
      | .ok progress => calibrateFrom declared observed window progress (place + 1) rest
  | _ :: rest => calibrateFrom declared observed window progress (place + 1) rest

end Calibration

/-- A scenario after calibration, with reports on the targets that were corrected. -/
structure Calibrated (α : Type) where
  scenario : Scenario α
  results : Entries (CalibrationResult α)
  notices : List (Notice α)

/-- Calibrates a scenario; the window holds for calibrations that declare none. -/
def Scenario.calibrate (s : Scenario α) (observed : Observations α) (window : α)
    : Except Fault (Calibrated α) := do
  let progress ← Calibration.calibrateFrom s.declarations observed window
    ⟨s.declarations, [], []⟩ 0 s.declarations
  return ⟨{ s with declarations := progress.declarations }, progress.results,
    progress.notices⟩

end Prognosis
