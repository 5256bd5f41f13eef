import Prognosis.Observation.Fetch

/-! Observation of all targets of a scenario at the same time. What is reported does not depend
on the order in which the targets are done: it follows the order of the targets.
-/

namespace Prognosis

variable {α : Type} [Scalar α]

/-- A target without observations, where it was looked for, and why. -/
structure FetchFailure (α : Type) where
  target : String
  locator : String
  error : FetchError α

/-- View of a failure. -/
def FetchFailure.view (f : FetchFailure α) : Json α :=
  .record [
    ("target", .text f.target),
    ("url", .text f.locator),
    ("error", .text f.error.message)
  ]

/-- The series of those targets that have one, and the failures of all others. -/
structure Collection (α : Type) where
  observed : Observations α
  failures : List (FetchFailure α)
  notices : List (Notice α)

namespace Collection

/-- Nothing was looked for. -/
def empty : Collection α :=
  ⟨[], [], []⟩

/-- Adds the series of a target before all others. -/
def addSeries (c : Collection α) (target : String) (series : ObservedSeries α) : Collection α :=
  { c with observed := (target, series) :: c.observed }

/-- Adds the failure of a target before all others. -/
def addFailure (c : Collection α) (t : DataTarget α) (error : FetchError α) : Collection α :=
  { c with failures := ⟨t.name, t.locator, error⟩ :: c.failures }

/-- Reports on targets by the outcomes of those that are done, in whatever order these came. A
target that is not done has run out of its time in seconds.
-/
def ofOutcomes (timeout : α) (done : List (String × FetchOutcome α))
    : List (DataTarget α) → Except Fault (Collection α)
  | [] => .ok empty
  | t :: rest =>
      match done.lookup t.name with
      | some (.observed series) => (ofOutcomes timeout done rest).map (·.addSeries t.name series)
      | some (.failed error) => (ofOutcomes timeout done rest).map (·.addFailure t error)
      | some (.broken fault) => .error fault
      | _ => do
          let others ← ofOutcomes timeout done rest
          let late := others.addFailure t (.timedOut timeout)
          return { late with notices := .timedOut t.name t.locator timeout :: late.notices }

/-- Count of targets that are observed at the same time. -/
def crew : Nat := 8

/-- Outcomes of the targets that are done, and what is worth noting. A target whose adapter does
not answer keeps one of the free places busy, and once none is free no other target begins.
-/
def outcomes (today : Date) (free : Nat) (adapters : List (Adapter α × Nat))
    : List (DataTarget α) → List (String × FetchOutcome α) × List (Notice α)
  | [] => ([], [])
  | t :: rest =>
      if free == 0 then ([], [])
      else
        let report := t.fetch today adapters
        match report.outcome with
        | .silent =>
            let (done, notices) := outcomes today (free - 1) (report.counted adapters) rest
            (done, report.notices ++ notices)
        | outcome =>
            let (done, notices) := outcomes today free (report.counted adapters) rest
            ((t.name, outcome) :: done, report.notices ++ notices)

end Collection

/-- Observes all targets of a scenario. -/
def Scenario.observe (s : Scenario α) (today : Date) (adapters : List (Adapter α)) (timeout : α)
    : Except Fault (Collection α) := do
  let targets := DataTarget.ofScenario s
  let (done, notices) :=
    Collection.outcomes today Collection.crew (adapters.map fun a => (a, 0)) targets
  let collected ← Collection.ofOutcomes timeout done targets
  return { collected with notices := notices ++ collected.notices }

end Prognosis
