import Prognosis.Scalar
import Prognosis.Value.Halt

/-! What a computation leaves to be read beside its answer. -/

namespace Prognosis

open Decimal

/-- Something that is worth noting and does not stop a computation. -/
inductive Notice (α : Type) where
  /-- Runs left a quantity undefined: at the worst point in time so many of all. -/
  | undefinedValues (name : String) (worst runs : Nat)
  /-- A watch rule on a target has no value. -/
  | ruleNotEvaluated (target : String) (error : EvalError)
  /-- A calibration names a target that has no uncertainty to correct. -/
  | nothingToCalibrate (target : String)
  /-- Neither a calibration nor its target declares a distribution. -/
  | noPrior (target : String)
  /-- Parameters of a prior have no value. -/
  | priorNotEvaluated (target : String) (error : EvalError)
  /-- A prior on a logarithmic scale meets no observation above zero. -/
  | nothingPositive (target : String)
  /-- An adapter is asked again after a pause: attempts made, of how many, and why. -/
  | retrying (adapter : String) (made attempts : Nat) (pause : α) (reason : String)
  /-- An adapter is given up after all attempts. -/
  | gaveUp (adapter : String) (attempts : Nat) (reason : String)
  /-- An adapter has no answer for a target. -/
  | adapterFailed (adapter target reason : String)
  /-- A target was not served in so many seconds. -/
  | timedOut (target locator : String) (seconds : α)
  /-- A file of datasets cannot be read. -/
  | noDatasets (file : String)
  deriving Repr

namespace Notice

variable {α : Type} [Scalar α]

/-- Weight of a notice. -/
inductive Level where
  | warning | error
  deriving DecidableEq, Repr

/-- Word for the weight. -/
def Level.word : Level → String
  | warning => "WARNING"
  | error => "ERROR"

/-- Weight of the notice: only giving up is an error. -/
def level : Notice α → Level
  | gaveUp .. => .error
  | _ => .warning

/-- The notice in words. -/
def message : Notice α → String
  | undefinedValues name worst runs =>
      "'" ++ name ++ "' is undefined in " ++ wholeText worst ++ " of " ++ wholeText runs
        ++ " runs at some timestep; those samples are excluded from its statistics"
  | ruleNotEvaluated target error =>
      "Watch rule on '" ++ target ++ "' could not be evaluated: " ++ error.message
  | nothingToCalibrate target =>
      "Calibration target '" ++ target ++ "' has no uncertainty to calibrate"
  | noPrior target => "Calibration target '" ++ target ++ "' declares no prior or uncertainty"
  | priorNotEvaluated target error =>
      "Prior of '" ++ target ++ "' cannot be evaluated: " ++ error.message
  | nothingPositive target =>
      "No positive observations for lognormal prior of '" ++ target ++ "'"
  | retrying adapter made attempts pause reason =>
      "Retry " ++ wholeText made ++ "/" ++ wholeText attempts ++ " for " ++ adapter ++ " in "
        ++ Scalar.exactText pause ++ "s: " ++ reason
  | gaveUp adapter attempts reason =>
      "Failed after " ++ wholeText attempts ++ " attempts for " ++ adapter ++ ": " ++ reason
  | adapterFailed adapter target reason =>
      adapter ++ " failed for '" ++ target ++ "': " ++ reason
  | timedOut target locator seconds =>
      "Fetch of '" ++ target ++ "' from " ++ locator ++ ": Timed out after "
        ++ Scalar.general seconds ++ "s"
  | noDatasets file => "Failed to load fallback datasets from " ++ file

/-- The notice on one line. -/
def line (n : Notice α) : String :=
  n.level.word ++ " " ++ n.message

end Notice

end Prognosis
