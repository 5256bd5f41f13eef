import Prognosis.Settings
import Prognosis.Simulation.Result

/-! Simulation of a scenario: what it is asked for, when it is refused, and its report. -/

namespace Prognosis

open Decimal

variable {σ α : Type} [Scalar α]

/-- What a simulation is asked for; what is left open is decided by the scenario, and then by
the settings.
-/
structure SimulationRequest (α : Type) where
  runs : Option Int
  seed : Option Int
  percentiles : Option (List α)
  workers : Option Int
  /-- Values that take the place of parameters. -/
  pins : Env α

/-- A request that leaves everything open. -/
def SimulationRequest.unspecified (α : Type) : SimulationRequest α :=
  ⟨none, none, none, none, []⟩

/-- Why a simulation is refused. -/
inductive Refusal where
  | noScenario
  | invalid (scenario : String) (count : Nat) (first : Code) (message : String)
  | noGraph (scenario : String)
  | noRuns (scenario : String) (runs : Int)
  deriving DecidableEq, Repr

/-- The refusal in words. -/
def Refusal.message : Refusal → String
  | noScenario => "Cannot simulate: no scenario (the source did not parse)"
  | invalid scenario count first message =>
      "Cannot simulate '" ++ scenario ++ "': " ++ wholeText count
        ++ " validation error(s), first: [" ++ first.text ++ "] " ++ message
  | noGraph scenario => "Cannot simulate '" ++ scenario ++ "': no causal graph"
  | noRuns scenario runs =>
      "Cannot simulate '" ++ scenario ++ "': runs must be at least 1, got " ++ signedText runs

/-- Why a simulation has no report: it is refused, or it stopped. -/
inductive SimulationFailure where
  | refused (reason : Refusal)
  | stopped (halt : Halt)
  deriving DecidableEq, Repr

/-- A computation with numbers as a part of a simulation. -/
def SimulationFailure.lift {β : Type} : Except Fault β → Except SimulationFailure β
  | .error fault => .error (.stopped (.fault fault))
  | .ok value => .ok value

/-- What a simulation is carried out with. -/
structure SimulationOptions (α : Type) where
  runs : Int
  seed : Int
  percentiles : List α
  threshold : α
  workers : Int

/-- Decides what a request leaves open. -/
def SimulationRequest.resolve (request : SimulationRequest α) (block : Option (Simulate α))
    (settings : Settings.Engine α) : Except Fault (SimulationOptions α) := do
  let asked := request.percentiles.or (block.bind (·.percentiles))
  let percentiles ←
    match asked with
    | some values => .ok values
    | none => settings.percentiles.mapM Json.toNumber
  return {
    runs := (request.runs.or (block.bind (·.runs))).getD settings.runs
    seed := (request.seed.or (block.bind (·.seed))).getD settings.seed
    percentiles := percentiles
    threshold := (block.bind (·.convergence)).getD settings.convergence
    workers := request.workers.getD settings.workers
  }

/-- Simulates a scenario that was checked. -/
def simulateChecked (source : RandomSource σ α) (settings : Json α)
    (request : SimulationRequest α) (s : Scenario α) (checked : Checked α)
    : Except SimulationFailure (SimulationResult α × List (Notice α)) :=
  match checked.errors, checked.graph with
  | first :: rest, _ =>
      .error (.refused (.invalid s.name (rest.length + 1) first.finding.code
        first.finding.message))
  | [], none => .error (.refused (.noGraph s.name))
  | [], some graph => do
      let engine ← SimulationFailure.lift (Settings.engine settings)
      let options ← SimulationFailure.lift (request.resolve s.simulate? engine)
      if options.runs < 1 then throw (.refused (.noRuns s.name options.runs))
      let dates ← SimulationFailure.lift (timeline s.metadata.timeframe s.metadata.resolution)
      let plan := Plan.ofScenario s graph.order (dates.map Date.yearFraction) options.seed
        request.pins
      SimulationFailure.lift (plan.checkSize options.runs.toNat)
      match plan.runAll source options.runs.toNat (max 1 options.workers).toNat with
      | .error halt => .error (.stopped halt)
      | .ok outcomes =>
          SimulationFailure.lift
            (SimulationResult.ofOutcomes s.name plan dates options.percentiles
              options.threshold outcomes)

/-- Simulates what could be read of a text. -/
def simulate (source : RandomSource σ α) (settings : Json α) (request : SimulationRequest α)
    : Option (Scenario α) → Except SimulationFailure (SimulationResult α × List (Notice α))
  | none => .error (.refused .noScenario)
  | some s => simulateChecked source settings request s s.check

end Prognosis
