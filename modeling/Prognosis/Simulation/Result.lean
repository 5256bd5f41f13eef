import Prognosis.Json
import Prognosis.Notice
import Prognosis.Simulation.Batch
import Prognosis.Simulation.Summary

/-! What a simulation reports: statistics of every variable and impact over time, how often
each branch was taken, and whether two halves of the runs agree.
-/

namespace Prognosis

variable {α : Type} [Scalar α]

/-- Statistics of a quantity at a day. -/
structure SeriesPoint (α : Type) where
  date : Date
  summary : Summary α

/-- Report of a simulation. -/
structure SimulationResult (α : Type) where
  scenario : String
  runs : Nat
  seed : Int
  dates : List Date
  varying : Entries (List (SeriesPoint α))
  impacts : Entries (List (SeriesPoint α))
  /-- Share of the runs that took a branch. -/
  branches : Entries α
  converged : Bool

namespace Outcome

/-- Values at each point in time, run by run. -/
def columns : (count : Nat) → List (List (Env α)) → List (List (Env α))
  | 0, _ => []
  | count + 1, rows => rows.map (·.headD []) :: columns count (rows.map List.tail)

/-- The values that runs gave to a name at one point in time. -/
def sample (name : String) (column : List (Env α)) : List α :=
  column.map fun env => (env.lookup name).getD Scalar.undefined

end Outcome

namespace SimulationResult

/-- How the values of a column are added: in the order of the runs while the columns of other
points in time are added too, and by halves where there is one column only.
-/
def columnOrder (count : Nat) : SumOrder :=
  if count == 1 then .pairwise else .sequential

/-- Statistics of a name over time. -/
def series (order : SumOrder) (percentiles : List α) (name : String)
    : List Date → List (List (Env α)) → Except Fault (List (SeriesPoint α))
  | date :: dates, column :: columns => do
      let summary ← Summary.ofValues order percentiles (Outcome.sample name column)
      let others ← series order percentiles name dates columns
      return ⟨date, summary⟩ :: others
  | _, _ => .ok []

/-- Notice of a series in which runs left values undefined. -/
def notice? (name : String) (runs : Nat) (points : List (SeriesPoint α)) : Option (Notice α) :=
  let worst := (points.map (·.summary.undefinedCount)).foldl max 0
  if worst == 0 then none else some (.undefinedValues name worst runs)

/-- Least count of runs from which agreement of the halves says something. -/
def leastRunsToConverge : Nat :=
  200

/-- The means of the first and the second half of a sample agree up to a share of the mean. -/
def halvesAgree (threshold : α) (values : List α) : Bool :=
  let half := values.length / 2
  let first := Sample.definedMean .pairwise (values.take half)
  let second := Sample.definedMean .pairwise (values.drop half)
  let mean := Sample.definedMean .pairwise values
  let scale := Scalar.greatest (Scalar.abs mean) (Scalar.ofDecimal false 1 (-12))
  Scalar.isFinite first && Scalar.isFinite second
    && !Scalar.lt threshold (Scalar.abs (first - second) / scale)

/-- There are runs enough, and at the last point in time the halves agree on every name. -/
def hasConverged (threshold : α) (names : List String) (runs : Nat)
    (last : List (Env α)) : Bool :=
  leastRunsToConverge ≤ runs
    && names.all fun name => halvesAgree threshold (Outcome.sample name last)

/-- Share of the outcomes in which a branch was taken. -/
def branchShare (outcomes : List (Outcome α)) (branch : String) : α :=
  Scalar.ofNat (outcomes.countP fun o => o.activated.contains branch)
    / Scalar.ofNat outcomes.length

/-- Report of outcomes. -/
def ofOutcomes (scenario : String) (plan : Plan α) (dates : List Date) (percentiles : List α)
    (threshold : α) (outcomes : List (Outcome α))
    : Except Fault (SimulationResult α × List (Notice α)) := do
  let runs := outcomes.length
  let columns := Outcome.columns dates.length (outcomes.map (·.steps))
  let all ← plan.order.mapM fun name => do
    return (name, ← series (columnOrder dates.length) percentiles name dates columns)
  let isVariable (name : String) : Bool :=
    (plan.owner? name).any (·.kind == .varying)
  let result : SimulationResult α := {
    scenario := scenario
    runs := runs
    seed := plan.seed
    dates := dates
    varying := all.filter fun (name, _) => isVariable name
    impacts := all.filter fun (name, _) => !isVariable name
    branches := plan.branches.map fun b => (b.name, branchShare outcomes b.name)
    converged := hasConverged threshold plan.order runs (columns.getLast?.getD [])
  }
  return (result, all.filterMap fun (name, points) => notice? name runs points)

/-- Statistics of a variable or impact at the last point in time. -/
def final? (r : SimulationResult α) (name : String) : Option (Summary α) :=
  ((r.varying.lookup name).or (r.impacts.lookup name)).bind fun points =>
    points.getLast?.map (·.summary)

end SimulationResult

/-! ### Views -/

/-- Key of a percentile. -/
def Summary.percentileKey (p : α) : String :=
  "p" ++ Scalar.general p

/-- Fields of the view of statistics. -/
def Summary.fields (s : Summary α) : List (String × Json α) := [
  ("mean", .number s.mean),
  ("median", .number s.median),
  ("std", .number s.deviation),
  ("min", .number s.least),
  ("max", .number s.greatest),
  ("percentiles",
    .record (Entries.ofList (s.percentiles.map fun (p, x) => (percentileKey p, .number x)))),
  ("undefined", .whole s.undefinedCount)
]

/-- View of statistics. -/
def Summary.view (s : Summary α) : Json α :=
  .record s.fields

/-- View of statistics at a day. -/
def SeriesPoint.view (p : SeriesPoint α) : Json α :=
  .record (("date", .text p.date.text) :: p.summary.fields)

namespace SimulationResult

/-- View of series by the names of their quantities. -/
def seriesView (entries : Entries (List (SeriesPoint α))) : Json α :=
  .record (entries.map fun (name, points) => (name, .list (points.map (·.view))))

/-- View of a report. -/
def view (r : SimulationResult α) : Json α :=
  .record [
    ("scenario", .text r.scenario),
    ("runs", .whole r.runs),
    ("seed", .whole r.seed),
    ("timesteps", .list (r.dates.map fun d => .text d.text)),
    ("variables", seriesView r.varying),
    ("impacts", seriesView r.impacts),
    ("branches", .record (r.branches.map fun (name, share) => (name, .number share))),
    ("convergence_reached", .flag r.converged)
  ]

end SimulationResult

end Prognosis
