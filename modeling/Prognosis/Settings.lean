import Prognosis.Json.Number
import Prognosis.Settings.Document

/-! Settings that hold where neither a scenario nor a request says otherwise. -/

namespace Prognosis

namespace Settings

variable {α : Type} [Scalar α]

/-- What a simulation takes over. Percentiles are kept as they are written, and a simulation
reads them as numbers.
-/
structure Engine (α : Type) where
  runs : Int
  seed : Int
  percentiles : List (Json α)
  convergence : α
  workers : Int

/-- What the observation of data takes over, both in their units: seconds and years. -/
structure Observation (α : Type) where
  timeout : α
  window : α

/-- How failed requests are repeated, as written. -/
structure Retry (α : Type) where
  attempts : Json α
  firstPause : Json α
  growth : Json α

/-- The fields of a section. A section that is missing or empty has none. -/
def fieldsOf (document : Json α) (key : String) : Except Fault (Json α) :=
  if document.isPresent then
    (document.field? key).map fun found =>
      let value := found.getD .null
      if value.isPresent then value else .record []
  else .ok (.record [])

/-- The field of a section, read in the given way, or what stands for it. -/
def valueOr {β : Type} (fields : Json α) (key : String) (read : Json α → Except Fault β)
    (otherwise : β) : Except Fault β := do
  match ← fields.field? key with
  | some value => read value
  | none => return otherwise

/-- Percentiles that are reported where nothing else is asked for. -/
def standardPercentiles : List (Json α) :=
  [.whole 5, .whole 25, .whole 50, .whole 75, .whole 95]

/-- Settings of simulations. -/
def engine (document : Json α) : Except Fault (Engine α) := do
  let fields ← fieldsOf document "engine"
  let runs ← valueOr fields "runs" Json.toWhole 2000
  let seed ← valueOr fields "seed" Json.toWhole 42
  let percentiles ← valueOr fields "percentiles" Json.entries standardPercentiles
  let convergence ← valueOr fields "convergence" Json.toNumber (Scalar.ofDecimal false 1 (-2))
  let workers ← valueOr fields "workers" Json.toWhole 1
  return ⟨runs, seed, percentiles, convergence, workers⟩

/-- Settings of the observation of data. -/
def observation (document : Json α) : Except Fault (Observation α) := do
  let fields ← fieldsOf document "pulse"
  let timeout ← valueOr fields "timeout_seconds" Json.toNumber (Scalar.ofNat 10)
  let window ← valueOr fields "calibration_window_years" Json.toNumber (Scalar.ofNat 5)
  return ⟨timeout, window⟩

/-- Settings of repeated requests. -/
def retry (document : Json α) : Except Fault (Retry α) := do
  let outer ← fieldsOf document "pulse"
  let fields ← fieldsOf outer "retry"
  let attempts ← valueOr fields "max_retries" .ok (.whole 2)
  let firstPause ← valueOr fields "initial_backoff_seconds" .ok
    (.number (Scalar.ofDecimal false 5 (-1)))
  let growth ← valueOr fields "backoff_multiplier" .ok (.whole 2)
  return ⟨attempts, firstPause, growth⟩

/-- The document that says nothing, so that every setting has its standard value. -/
def standard : Json α :=
  .record []

end Settings

end Prognosis
