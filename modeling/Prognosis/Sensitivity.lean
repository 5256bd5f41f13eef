import Prognosis.Simulation

/-! Sensitivity of a scenario to the parameters that a reader may set: each one is pinned to
both ends of its reach while all others keep their defaults, and the final medians are compared.
-/

namespace Prognosis

variable {σ α : Type} [Scalar α]

/-- A parameter that a reader may set, with its default and its reach. -/
structure Knob (α : Type) where
  name : String
  label : String
  default : α
  low : α
  high : α

namespace Knob

/-- The reach of a default without a declared range: from a tenth to three times, in order. -/
def reach (default : α) : α × α :=
  let low := default * Scalar.ofDecimal false 1 (-1)
  let high := default * Scalar.ofNat 3
  if Scalar.lt high low then (high, low) else (low, high)

/-- Declared magnitudes of both ends of a range. -/
def rangeOf (env : Env α) : Option (Expr α × Expr α) → Except Halt (Option (α × α))
  | none => .ok none
  | some (low, high) => do
      let low ← low.magnitude env
      let high ← high.magnitude env
      return some (low, high)

/-- Default of a parameter: its value, else the middle of its range, else zero. -/
def defaultOf (env : Env α) (p : Parameter α) (range : Option (α × α)) : Except Halt α :=
  match p.value, range with
  | some e, _ => e.magnitude env
  | none, some (low, high) => .ok ((low + high) / Scalar.ofNat 2)
  | none, none => .ok Scalar.zero

/-- The knob of a parameter, if it has one: it is a slider or declares a range. -/
def ofParameter? (p : Parameter α) (default : α) (range : Option (α × α)) : Option (Knob α) :=
  let label := if (p.label.getD "").isEmpty then p.name else p.label.getD ""
  match range with
  | some (low, high) => some ⟨p.name, label, default, low, high⟩
  | none =>
      if p.control == some .slider then
        let (low, high) := reach default
        some ⟨p.name, label, default, low, high⟩
      else none

/-- Knobs of named values, where constants before them have the given values. -/
def collect : Env α → List (Quantity α) → Except Halt (List (Knob α))
  | _, [] => .ok []
  | env, .assumption a :: rest =>
      match (a.value.map fun e => e.magnitude env).getD (.ok Scalar.zero) with
      | .error halt => .error halt
      | .ok x => collect ((a.name, x) :: env) rest
  | env, .parameter p :: rest =>
      match rangeOf env p.range with
      | .error halt => .error halt
      | .ok range =>
          match defaultOf env p range with
          | .error halt => .error halt
          | .ok default =>
              match collect ((p.name, default) :: env) rest with
              | .error halt => .error halt
              | .ok others => .ok ((ofParameter? p default range).toList ++ others)
  | env, _ :: rest => collect env rest

/-- The knobs of a scenario, in order. -/
def ofScenario (s : Scenario α) : Except Halt (List (Knob α)) :=
  collect [] s.quantities

/-- View of a knob. -/
def view (k : Knob α) : Json α :=
  .record [
    ("name", .text k.name),
    ("label", .text k.label),
    ("default", .number k.default),
    ("min", .number k.low),
    ("max", .number k.high)
  ]

end Knob

/-- How far a quantity moves between both ends of a knob. -/
structure Swing (α : Type) where
  observable : String
  baseline : α
  low : α
  high : α
  /-- Distance between both ends. -/
  extent : α
  /-- The distance in percent of the baseline. -/
  relative : α

/-- How far a parameter moves the quantities of a scenario. -/
structure Influence (α : Type) where
  parameter : String
  label : String
  swings : List (Swing α)
  total : α

namespace Swing

/-- Swing of a quantity by its values; a baseline of zero admits no relative swing. -/
def ofValues (observable : String) (baseline low high : α) : Swing α :=
  let extent := Scalar.abs (high - low)
  let relative :=
    if Scalar.isTrue baseline then extent / Scalar.abs baseline * Scalar.ofNat 100
    else Scalar.zero
  ⟨observable, baseline, low, high, extent, relative⟩

/-- View of a swing. -/
def view (s : Swing α) : Json α :=
  .record [
    ("observable", .text s.observable),
    ("baseline_value", .number s.baseline),
    ("low_value", .number s.low),
    ("high_value", .number s.high),
    ("swing", .number s.extent),
    ("swing_pct", .number s.relative)
  ]

end Swing

namespace Influence

/-- The swing of a quantity. -/
def swing? (i : Influence α) (observable : String) : Option (Swing α) :=
  i.swings.find? (·.observable == observable)

/-- View of an influence. -/
def view (i : Influence α) : Json α :=
  .record [
    ("parameter", .text i.parameter),
    ("label", .text i.label),
    ("outputs", .list (i.swings.map (·.view))),
    ("total_swing", if i.swings.isEmpty then .whole 0 else .number i.total)
  ]

end Influence

namespace SimulationResult

/-- Final median of a quantity: the percentile of fifty where it was asked for. -/
def finalMedian? (r : SimulationResult α) (name : String) : Option α :=
  (r.final? name).map fun s => (s.percentile? (Scalar.ofNat 50)).getD s.median

end SimulationResult

namespace Influence

/-- Influence of a knob by three reports: with all knobs at their defaults, and with this one
at its low and at its high end. Quantities that are not finite in all of them are left out.
-/
def ofResults (observables : List String) (k : Knob α) (base low high : SimulationResult α)
    : Influence α :=
  let swings := observables.filterMap fun name =>
    match base.finalMedian? name, low.finalMedian? name, high.finalMedian? name with
    | some b, some l, some h =>
        if Scalar.isFinite b && Scalar.isFinite l && Scalar.isFinite h then
          some (Swing.ofValues name b l h)
        else none
    | _, _, _ => none
  ⟨k.name, k.label, swings, Scalar.sum (swings.map (·.relative))⟩

/-- Influences with the greatest total first; equal ones keep their order. -/
def ranked (influences : List (Influence α)) : List (Influence α) :=
  influences.mergeSort fun i j => Scalar.le j.total i.total

end Influence

namespace Sensitivity

/-- Quantities that are compared where none are asked for. -/
def allObservables (s : Scenario α) : List String :=
  (s.quantities.filter fun q => !q.isConstant).map (·.name)

/-- Values of all knobs at their defaults. -/
def defaultPins (knobs : List (Knob α)) : Env α :=
  Entries.ofList (knobs.map fun k => (k.name, k.default))

/-- The pins of all simulations: first all defaults, then for each knob its low and its high
end.
-/
def allPins (knobs : List (Knob α)) : List (Env α) :=
  let baseline := defaultPins knobs
  baseline :: knobs.flatMap fun k =>
    [Entries.put k.name k.low baseline, Entries.put k.name k.high baseline]

/-- Influences of knobs by the reports on the pins of all simulations. -/
def influences (observables : List String) (base : SimulationResult α)
    : List (Knob α) → List (SimulationResult α) → List (Influence α)
  | k :: knobs, low :: high :: others =>
      Influence.ofResults observables k base low high
        :: influences observables base knobs others
  | _, _ => []

/-- What an analysis is asked for. -/
structure Request (α : Type) where
  knobs : List (Knob α)
  observables : Option (List String)
  runs : Option Int
  seed : Option Int

/-- Influence of knobs on a scenario that was checked, the greatest one first. -/
def analyse (source : RandomSource σ α) (settings : Json α) (request : Request α)
    (s : Scenario α) (checked : Checked α)
    : Except SimulationFailure (List (Influence α)) :=
  if request.knobs.isEmpty then .ok []
  else do
    let observables := request.observables.getD (allObservables s)
    let seed ←
      match request.seed.or (s.simulate?.bind (·.seed)) with
      | some seed => .ok seed
      | none => (SimulationFailure.lift (Settings.engine settings)).map (·.seed)
    let results ← (allPins request.knobs).mapM fun pins =>
      (simulateChecked source settings ⟨request.runs, some seed, none, some 1, pins⟩ s
        checked).map (·.1)
    match results with
    | [] => return []
    | base :: others =>
        return Influence.ranked (influences observables base request.knobs others)

end Sensitivity

end Prognosis
