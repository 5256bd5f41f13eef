import Prognosis.Adapter.Bundled
import Prognosis.Adapter.Eurostat
import Prognosis.Adapter.WorldBank
import Prognosis.Calibration
import Prognosis.Observation.Collect
import Prognosis.Observation.Watch

/-! The pulse of a scenario: data is observed, uncertainties are calibrated by it, and rules are
watched. A first result from data at hand can be shown while one from live sources is awaited.
-/

namespace Prognosis

variable {α : Type} [Scalar α]

/-- Where the data of a pulse comes from: what is at hand, or live sources. -/
inductive PulsePhase where
  | fast | live
  deriving DecidableEq, Repr

/-- Word for the phase. -/
def PulsePhase.word : PulsePhase → String
  | fast => "fast"
  | live => "live"

/-- The parts of a pulse that are left out. -/
structure PulseSkips where
  fetching : Bool
  calibration : Bool
  watch : Bool

/-- Nothing is left out. -/
def PulseSkips.nothing : PulseSkips :=
  ⟨false, false, false⟩

/-- What a pulse came to. -/
structure PulseResult (α : Type) where
  scenario : String
  phase : PulsePhase
  observed : Observations α
  failures : List (FetchFailure α)
  alerts : List (Alert α)
  /-- The scenario after calibration, unless calibration is left out. -/
  calibrated : Option (Scenario α)
  calibrations : Entries (CalibrationResult α)
  notices : List (Notice α)

namespace PulseResult

/-- Adapters that do not ask a live source. -/
def offlineAdapters : List String :=
  ["fallback", "declared-fallback"]

/-- The series comes from a live source. -/
def isLiveSeries (s : ObservedSeries α) : Bool :=
  match s.adapter with
  | some name => !offlineAdapters.contains name
  | none => true

/-- The result rests on live sources: no target is without data, and the data of one at least is
live.
-/
def isLive (r : PulseResult α) : Bool :=
  r.phase == .live && r.failures.isEmpty && r.observed.any fun (_, series) => isLiveSeries series

/-- View of a result. -/
def view (r : PulseResult α) : Json α :=
  .record [
    ("scenario", .text r.scenario),
    ("phase", .text r.phase.word),
    ("is_live", .flag r.isLive),
    ("observed", .record (r.observed.map fun (target, series) => (target, series.view))),
    ("alerts", .list (r.alerts.map (·.view))),
    ("calibrations", .record (r.calibrations.map fun (target, result) => (target, result.view))),
    ("errors", .list (r.failures.map (·.view)))
  ]

end PulseResult

/-- Observes, calibrates and watches a scenario by adapters; a timeout that is not given is that
of the settings.
-/
def Scenario.pulseBy (s : Scenario α) (phase : PulsePhase) (settings : Json α) (today : Date)
    (adapters : List (Adapter α)) (timeout : Option α) (skips : PulseSkips)
    : Except Fault (PulseResult α) := do
  let collected ←
    if skips.fetching then .ok Collection.empty
    else do
      let timeout ←
        match timeout with
        | some seconds => .ok seconds
        | none => (Settings.observation settings).map (·.timeout)
      s.observe today adapters timeout
  let calibrated ←
    if skips.calibration then .ok none
    else do
      let window := (← Settings.observation settings).window
      (s.calibrate collected.observed window).map some
  let (alerts, notices) ←
    if skips.watch then .ok ([], []) else s.alerts collected.observed
  let calibrationNotices := (calibrated.map (·.notices)).getD []
  return {
    scenario := s.name
    phase := phase
    observed := collected.observed
    failures := collected.failures
    alerts := alerts
    calibrated := calibrated.map (·.scenario)
    calibrations := (calibrated.map (·.results)).getD []
    notices := collected.notices ++ calibrationNotices ++ notices
  }

/-- Surroundings of a pulse: settings, the day, and answers to queries over the network. -/
structure PulseContext (α : Type) where
  settings : Json α
  today : Date
  web : Web α

namespace PulseContext

/-- How an adapter repeats failed attempts where nothing else is said. -/
def retry (c : PulseContext α) (attempts : Option (Json α)) : Except Fault (RetryPolicy α) := do
  RetryPolicy.ofSettings (← Settings.retry c.settings) attempts none none

/-- The adapters of the live phase: given ones come first, and the data at hand last. -/
def liveAdapters (c : PulseContext α) (given : List (Adapter α))
    : Except Fault (List (Adapter α)) := do
  let retry ← c.retry none
  return given ++
    [Eurostat.adapter c.web retry, WorldBank.adapter c.web c.today retry,
      Registry.bundled.adapter retry]

/-- The adapters of the fast phase, which asks once. -/
def fastAdapters (c : PulseContext α) (registry : Registry α)
    : Except Fault (List (Adapter α)) := do
  return [registry.adapter (← c.retry (some (.whole 1)))]

end PulseContext

/-- The pulse of a scenario by live sources. -/
def Scenario.pulse (s : Scenario α) (c : PulseContext α) (given : List (Adapter α))
    (timeout : Option α) (skips : PulseSkips) : Except Fault (PulseResult α) := do
  s.pulseBy .live c.settings c.today (← c.liveAdapters given) timeout skips

/-- The pulse of a scenario by datasets at hand. -/
def Scenario.fastPulse (s : Scenario α) (c : PulseContext α) (registry : Registry α)
    (skips : PulseSkips) : Except Fault (PulseResult α) := do
  s.pulseBy .fast c.settings c.today (← c.fastAdapters registry) none
    { skips with fetching := false }

/-- A result from data at hand, and one from live sources that may still be awaited. -/
structure TwoPhasePulse (α : Type) where
  initial : PulseResult α
  refined : Except Fault (PulseResult α)

/-- The better result: the refined one once it is there, unless it broke down. -/
def TwoPhasePulse.latest (p : TwoPhasePulse α) (isDone : Bool) : PulseResult α :=
  match isDone, p.refined with
  | true, .ok refined => refined
  | _, _ => p.initial

/-- The pulse of a scenario in two phases. -/
def Scenario.twoPhasePulse (s : Scenario α) (c : PulseContext α) (registry : Registry α)
    (given : List (Adapter α)) (timeout : Option α) : Except Fault (TwoPhasePulse α) := do
  let initial ← s.fastPulse c registry .nothing
  return ⟨initial, s.pulse c given timeout .nothing⟩

end Prognosis
