import Prognosis.Proofs.Observation.Alerts
import Prognosis.Proofs.Sensitivity.Baseline
import Prognosis.Proofs.Simulation.Looks

/-! What watch rules assume is what runs have. Runs, watch rules and knobs go through the constants
on their own, and functions through anchors are built by runs and by watch rules. Where nothing
random enters, they all come to the same values.
-/

namespace Prognosis

variable {σ α : Type} [Scalar α]

-----------------------------------------------------------------------------------------
-- Variables with anchors
-----------------------------------------------------------------------------------------

theorem Halt.lift_eq_ok {β : Type} {result : Except Fault β} {x : β}
    : Halt.lift result = .ok x ↔ result = .ok x := by
  cases result <;> simp [Halt.lift]

theorem Variable.interpolant_eq_ok {v : Variable α} {constants : Env α} {curve : Interpolant α}
    : v.interpolant constants = .ok curve
      ↔ ∃ times values, v.anchors.mapM (·.date.yearFraction) = .ok times
          ∧ Expr.magnitudes constants (v.anchors.map (·.value)) = .ok values
          ∧ Interpolant.ofAnchors v.method
              ((times.zip values).map fun (t, x) => (⟨t, x⟩ : Point α)) = .ok curve := by
  simp only [interpolant, bind_eq_ok, Halt.lift_eq_ok]
  constructor
  · rintro ⟨times, placed, values, valued, through⟩
    exact ⟨times, values, placed, valued, through⟩
  · rintro ⟨times, values, placed, valued, through⟩
    exact ⟨times, placed, values, valued, through⟩

/-- Watch rules assume the function that a run builds through the anchors of a variable. -/
theorem Watch.assumedValue_interpolant {s : Scenario α} {constants : Env α} {target : Path}
    {v : Variable α} {curve : Interpolant α} (time : α)
    (found : s.find? target.root = some (.quantity (.varying v))) (anchored : v.anchors ≠ [])
    (through : v.interpolant constants = .ok curve)
    : assumedValue s constants target time = .ok (some (curve.value time)) := by
  obtain ⟨times, values, placed, valued, through⟩ := Variable.interpolant_eq_ok.mp through
  exact assumedValue_eq_some.mpr (.between found anchored valued placed through)

namespace Plan

open RunState

variable {source : RandomSource σ α} {opened : String → σ} {plan : Plan α} {v : Variable α}
  {stream : String} {state ended : RunState σ α}

/-- A variable without uncertainty that has anchors lies on the function through them. -/
theorem moment_anchored (sound : plan.Sound) (ordered : v.name ∈ plan.order)
    (anchored : v.anchors ≠ []) (certain : v.uncertainty = none) {time : α} {m : Moment σ α}
    (valid : Valid plan state) (held : state.inForce.lookup v.name = some ⟨.varying v, stream⟩)
    (passed : plan.moment source opened time state = .ok m)
    : ∃ curve, v.interpolant state.constants = .ok curve
        ∧ m.values.lookup v.name = some (curve.value time) := by
  obtain ⟨-, -, computed, -⟩ := moment_ok passed
  have swept := computeAll_sweep source opened valid.coherent time plan.origin plan.order
    state.constants
  rw [computed] at swept
  obtain ⟨gives, -⟩ := sweep_gives (cells_ready valid sound source time plan.origin) swept.symm
  obtain ⟨s, x, s', drawn, has⟩ :=
    gives _ (mem_cells.mpr ⟨v.name, ordered, ⟨.varying v, stream⟩, held, rfl⟩)
  have base : v.baseAt state.constants m.values time plan.origin
      = (v.interpolant state.constants).map (·.value time) := by
    obtain ⟨first, rest, anchors⟩ := List.exists_cons_of_ne_nil anchored
    simp only [Variable.baseAt, anchors]
  simp only [timedCell, Quantity.valueAt, base, certain, drawAround] at drawn
  cases through : v.interpolant state.constants with
  | error halt =>
      rw [through] at drawn
      cases drawn
  | ok curve =>
      rw [through] at drawn
      cases drawn
      exact ⟨curve, rfl, has⟩

/-- Without branches it does at all points in time, by the constants that are drawn before. By
induction along the points in time.
-/
theorem moments_anchored (sound : plan.Sound) (branchless : plan.branches = [])
    (ordered : v.name ∈ plan.order) (anchored : v.anchors ≠ []) (certain : v.uncertainty = none)
    {times : List α} {moments : List (Moment σ α)} (valid : Valid plan state)
    (held : state.inForce.lookup v.name = some ⟨.varying v, stream⟩)
    (passed : plan.moments source opened times state = .ok (moments, ended))
    : List.Forall₂
        (fun time values => ∃ curve, v.interpolant state.constants = .ok curve
          ∧ values.lookup v.name = some (curve.value time))
        times (moments.map (·.values)) := by
  induction times generalizing state moments with
  | nil =>
      cases passed
      exact .nil
  | cons time rest ih =>
      obtain ⟨m, later, first, more, rfl⟩ := moments_cons_ok passed
      obtain ⟨setting, left⟩ := moment_branchless sound branchless valid first
      have others := ih left (setting.inForce ▸ held) more
      rw [setting.constants] at others
      exact .cons (moment_anchored sound ordered anchored certain valid held first) others

end Plan

-----------------------------------------------------------------------------------------
-- Scenarios
-----------------------------------------------------------------------------------------

namespace Scenario

variable {s : Scenario α} {graph : CausalGraph}

omit [Scalar α] in
/-- Each constant declares a value. -/
def HasStatedConstants (s : Scenario α) : Prop :=
  ∀ q ∈ s.quantities, q.isConstant = true → q.declared? ≠ none

/-- The values of constants are the ones that watch rules know and knobs stand at. There are knobs
when the ranges of parameters can be evaluated by these values.
-/
structure Fixes (s : Scenario α) (constants : Env α) : Prop where
  watched : Watch.constants s = .ok constants
  knobs_iff
    : (∃ knobs, Knob.ofScenario s = .ok knobs)
      ↔ ∀ p, .parameter p ∈ s.quantities → ∃ range, Knob.rangeOf constants p.range = .ok range
  knobs
    : ∀ knobs, Knob.ofScenario s = .ok knobs →
        knobs.map (fun k => (k.name, some k.default))
          = s.adjustable.map fun p => (p.name, constants.lookup p.name)

/-- At each point in time a variable without uncertainty that has anchors has the value that watch
rules assume for its targets.
-/
def Foresees (s : Scenario α) (constants : Env α) (times : List α) (steps : List (Env α)) : Prop :=
  ∀ v, .varying v ∈ s.quantities → v.anchors ≠ [] → v.uncertainty = none →
    ∀ target : Path, target.root = v.name →
      List.Forall₂
        (fun time values => ∃ x, values.lookup v.name = some x
          ∧ Watch.assumedValue s constants target time = .ok (some x))
        times steps

theorem Accepted.find?_name (accepted : s.Accepted graph) {q : Quantity α}
    (member : q ∈ s.quantities)
    : s.find? q.name = some (.quantity q) := by
  obtain ⟨index, -, found⟩ := accepted.find?_quantity member
  rw [← find?_declaration, found]
  rfl

/-- Constants are drawn as they are declared. -/
theorem Accepted.declared_of_drawn (accepted : s.Accepted graph) (certain : s.HasCertainConstants)
    {source : RandomSource σ α} {opened : String → σ} {drawn : RunState σ α} {order : List String}
    {times : List α} {seed : Int}
    (draws
      : (RunState.start (Plan.ofScenario s order times seed [])).drawConstants source opened []
          (Plan.ofScenario s order times seed []).constants = .ok drawn)
    : declaredFrom [] s.constants = .ok drawn.constants := by
  rw [accepted.constants_eq] at draws
  have start : (RunState.start (Plan.ofScenario s order times seed []) : RunState σ α).constants
      = [] := rfl
  rw [← start, ← RunState.drawConstants_declared certain.isCertain fun _ => constant_of_mem, draws]
  rfl

theorem Accepted.fixes (accepted : s.Accepted graph) (source : RandomSource σ α)
    (certain : s.HasCertainConstants) (stated : s.HasStatedConstants) {all : Env α}
    (declared : declaredFrom [] s.constants = .ok all)
    : s.Fixes all := {
  watched := Watch.constantsFrom_declared stated ((declaredFrom_filter [] s.quantities).symm.trans
    declared)
  knobs_iff := accepted.knobs_iff source certain.stated declared
  knobs := fun _ are => accepted.knobs_defaults source certain.stated declared are
}

/-- In each run that comes to its end constants are drawn, before time runs, with the values that
watch rules know and at which knobs stand. Without branches each variable that has anchors and no
uncertainty has the value that watch rules assume for it, at all points in time. Nothing random
enters the constants, which all declare a value, and nothing is pinned. Witness: all three go
through the constants from the first to the last and evaluate each by those before it, and without
branches the values by which functions through anchors are built stay.
-/
theorem runs_have_assumed (s : Scenario α) (clean : s.check.errors = [])
    (certain : s.HasCertainConstants) (stated : s.HasStatedConstants)
    : ∃ graph, s.check.graph = some graph
        ∧ ∀ (source : RandomSource σ α) (times : List α) (seed : Int) (number : Nat)
            (outcome : Outcome α),
              (Plan.ofScenario s graph.order times seed []).run source number = .ok outcome
              → ∃ drawn,
                  (RunState.start (Plan.ofScenario s graph.order times seed [])).drawConstants
                      source (source.stream seed number) []
                      (Plan.ofScenario s graph.order times seed []).constants = .ok drawn
                    ∧ s.Fixes drawn.constants
                    ∧ (s.branches = [] → s.Foresees drawn.constants times outcome.steps) := by
  obtain ⟨graph, found, accepted⟩ := accepted_of_clean clean
  refine ⟨graph, found, fun source times seed number outcome ran => ?_⟩
  have sound := accepted.sound accepted.isOrder times seed []
  obtain ⟨moments, ended, happened, rfl⟩ := Plan.exists_history ran
  obtain ⟨drawn, draws, passed⟩ := Plan.history_ok happened
  refine ⟨drawn, draws,
    accepted.fixes source certain stated (accepted.declared_of_drawn certain draws), ?_⟩
  intro branchless v member anchored fixed target rooted
  have owns : .varying v ∈ (Plan.ofScenario s graph.order times seed []).owners := by
    rwa [accepted.owners_eq]
  have valid := (RunState.drawConstants_resolves sound source _).holds draws
  have held : drawn.inForce.lookup v.name = some ⟨.varying v, v.name⟩ := by
    obtain ⟨inForce, -⟩ := RunState.drawConstants_frame draws
    exact inForce ▸ RunState.lookup_start_owner sound owns
  have ordered := (sound.order v.name).mpr ⟨.varying v, owns, rfl, rfl⟩
  have lies := Plan.moments_anchored sound branchless ordered anchored fixed valid held passed
  refine lies.imp fun time values ⟨curve, through, has⟩ => ⟨curve.value time, has, ?_⟩
  have declared := accepted.find?_name member
  exact Watch.assumedValue_interpolant time (rooted ▸ declared) anchored through

end Scenario

-----------------------------------------------------------------------------------------
-- A weir without a drought
-----------------------------------------------------------------------------------------

namespace Weir

theorem weir_stated (branches : List (Branch Int)) : (weir branches).HasStatedConstants := by
  intro q among constant
  rw [weir_quantities] at among
  simp only [List.mem_cons, List.not_mem_nil, or_false] at among
  rcases among with rfl | rfl | rfl | rfl | rfl
  · nofun
  · nofun
  · nofun
  · cases constant
  · cases constant

theorem wet_clean : (weir []).check.errors = [] := by
  cbv

theorem wet_checked : (weir []).check.graph = some ⟨order, [], order⟩ := by
  cbv

/-- What is declared for the weir: it is opened by twice the rain, and the basin holds as much. -/
def constants : Env Int :=
  [("basin", 6), ("opening", 6), ("rain", 3)]

theorem weir_constants : Watch.constants (weir []) = .ok constants := by
  cbv

/-- The river of the weir is at all times where watch rules assume it. -/
theorem weir_as_assumed
    : (weir []).check.errors = [] ∧ (weir []).HasCertainConstants ∧ (weir []).HasStatedConstants
        ∧ ∃ outcome, Harvest.run (weir []) order [] = .ok outcome
            ∧ outcome.steps.map (·.lookup "river") = [some 6, some 6]
            ∧ (weir []).Fixes constants
            ∧ (weir []).Foresees constants [2025, 2026] outcome.steps := by
  refine ⟨wet_clean, weir_certain [], weir_stated [], ?_⟩
  have rivers : ((Harvest.run (weir []) order []).map fun outcome =>
        outcome.steps.map (·.lookup "river")).toOption
      = some [some 6, some 6] := by
    decide +kernel
  obtain ⟨graph, found, assumed⟩ := @Scenario.runs_have_assumed Nat Int _ (weir []) wet_clean
    (weir_certain []) (weir_stated [])
  rw [wet_checked] at found
  cases found
  cases ran : Harvest.run (weir []) order [] with
  | error halt =>
      rw [ran] at rivers
      cases rivers
  | ok outcome =>
      rw [ran] at rivers
      obtain ⟨drawn, -, fixes, foresees⟩ := assumed .counting [2025, 2026] 7 0 outcome ran
      have same : drawn.constants = constants :=
        Except.ok.inj (fixes.watched.symm.trans weir_constants)
      rw [same] at fixes foresees
      exact ⟨outcome, rfl, Option.some.inj rivers, fixes, foresees rfl⟩

end Weir

end Prognosis
