import Prognosis.Proofs.Run.Substitution
import Prognosis.Proofs.Simulation.Declared

/-! The baseline of an analysis is the scenario itself. Knobs stand at the values that their
parameters declare, so where nothing random enters the constants and no branch changes a parameter,
simulations with all knobs at their defaults are those without any.
-/

namespace Prognosis

variable {σ α : Type} [Scalar α]

-----------------------------------------------------------------------------------------
-- Branches that keep parameters
-----------------------------------------------------------------------------------------

omit [Scalar α] in
/-- No branch declares a parameter in the place of an owner. -/
def Plan.KeepsParameters (plan : Plan α) : Prop :=
  ∀ b ∈ plan.branches, ∀ q ∈ b.overrides, q.kind = .parameter → ¬plan.Replaces q

namespace RunState

variable {source : RandomSource σ α} {opened : String → σ} {plan : Plan α}
  {state : RunState σ α} {b : Branch α}

/-- Pins are not read where a declaration is put in the place of one that is no parameter. -/
theorem override_pins (valid : Valid plan state) {q : Quantity α}
    (keeps : q.kind = .parameter → ¬plan.Replaces q) (pins pins' : Env α)
    : override source opened pins b.name state q = override source opened pins' b.name state q := by
  simp only [override]
  cases found : state.inForce.lookup q.name with
  | none => rfl
  | some current =>
      by_cases kind : current.declaration.kind = q.kind
      · cases q with
        | parameter p => exact absurd (valid.replaces found kind) (keeps rfl)
        | assumption a => rfl
        | varying v => rfl
        | impact i => rfl
      · simp [kind]

/-- So they are not where several are, by induction along the declarations. -/
theorem overrideAll_pins (sound : plan.Sound) (keeps : plan.KeepsParameters)
    (branch : b ∈ plan.branches) {nested : List (Quantity α)}
    (included : ∀ q ∈ nested, q ∈ b.overrides) (valid : Valid plan state) (pins : Env α)
    : overrideAll source opened pins b.name state nested
      = overrideAll source opened plan.pins b.name state nested := by
  induction nested generalizing state with
  | nil => rfl
  | cons q rest ih =>
      rw [List.forall_mem_cons] at included
      rw [overrideAll, overrideAll,
        override_pins valid (keeps b branch q included.1) pins plan.pins]
      have next := override_resolves valid sound source opened branch included.1
      cases done : override source opened plan.pins b.name state q with
      | error halt => rfl
      | ok left => exact ih included.2 (next.holds done)

theorem decide_pins (sound : plan.Sound) (keeps : plan.KeepsParameters)
    (branch : b ∈ plan.branches) (valid : Valid plan state) (pins env : Env α)
    : decide source opened pins env state b = decide source opened plan.pins env state b := by
  rw [decide_eq, decide_eq, overrideAll_pins sound keeps branch (fun _ among => among)
    ((valid.gated source opened b.name).taking b.name) pins]

/-- All branches are looked at alike, by induction along them. -/
theorem decideAll_pins (sound : plan.Sound) (keeps : plan.KeepsParameters) {env : Env α}
    (values : ∀ q ∈ plan.owners, env.lookup q.name ≠ none) {branches : List (Branch α)}
    (included : ∀ b ∈ branches, b ∈ plan.branches) (valid : Valid plan state) (pins : Env α)
    : decideAll source opened pins env state branches
      = decideAll source opened plan.pins env state branches := by
  induction branches generalizing state with
  | nil => rfl
  | cons b rest ih =>
      rw [List.forall_mem_cons] at included
      rw [decideAll, decideAll, decide_pins sound keeps included.1 valid]
      have next := decide_resolves valid sound source opened values included.1
      cases done : decide source opened plan.pins env state b with
      | error halt => rfl
      | ok left => exact ih included.2 (next.holds done)

end RunState

-----------------------------------------------------------------------------------------
-- Runs
-----------------------------------------------------------------------------------------

namespace Plan

variable {source : RandomSource σ α} {plan : Plan α}

/-- The plan with other pins. -/
def pinnedAt (plan : Plan α) (pins : Env α) : Plan α :=
  { plan with pins := pins }

/-- Once constants are drawn, pins change nothing. By induction along the points in time. -/
theorem runThrough_pinnedAt (sound : plan.Sound) (keeps : plan.KeepsParameters)
    (source : RandomSource σ α) (opened : String → σ) {state : RunState σ α}
    (valid : state.Valid plan) (times : List α) (pins : Env α)
    : (plan.pinnedAt pins).runThrough source opened times state
      = plan.runThrough source opened times state := by
  induction times generalizing state with
  | nil => rfl
  | cons time rest ih =>
      have computation := RunState.computeAll_resolves valid sound source opened time plan.origin
      have origin : (plan.pinnedAt pins).origin = plan.origin := rfl
      simp only [runThrough, origin]
      cases computed
        : state.computeAll source opened time plan.origin plan.order state.constants with
      | error halt => simp only [pinnedAt, computed]
      | ok result =>
          obtain ⟨env, next⟩ := result
          obtain ⟨validNext, values⟩ := computation.holds computed
          have alike : next.decideAll source opened pins env plan.branches
              = next.decideAll source opened plan.pins env plan.branches :=
            RunState.decideAll_pins sound keeps values (fun _ among => among) validNext pins
          have decision := RunState.decideAll_resolves sound source opened values
            (fun _ among => among) validNext
          simp only [pinnedAt, computed, alike]
          cases decided : next.decideAll source opened plan.pins env plan.branches with
          | error halt => rfl
          | ok left =>
              have later := ih (decision.holds decided)
              simp only [pinnedAt] at later
              simp only [later]

/-- A run with other pins is the same if it draws the same constants before time runs. -/
theorem run_pinnedAt (sound : plan.Sound) (keeps : plan.KeepsParameters) {pins : Env α}
    {number : Nat}
    (draws
      : (RunState.start plan).drawConstants source (source.stream plan.seed number) pins
            plan.constants
          = (RunState.start plan).drawConstants source (source.stream plan.seed number) plan.pins
              plan.constants)
    : (plan.pinnedAt pins).run source number = plan.run source number := by
  have resolved := RunState.drawConstants_resolves sound source (source.stream plan.seed number)
  have start : (RunState.start (plan.pinnedAt pins)).drawConstants source
        (source.stream plan.seed number) pins (plan.pinnedAt pins).constants
      = (RunState.start plan).drawConstants source (source.stream plan.seed number) plan.pins
          plan.constants := draws
  simp only [run]
  simp only [pinnedAt] at start ⊢
  rw [start]
  cases drawn : (RunState.start plan).drawConstants source (source.stream plan.seed number)
      plan.pins plan.constants with
  | error halt => rfl
  | ok state =>
      have through := runThrough_pinnedAt sound keeps source
        (source.stream plan.seed number) (resolved.holds drawn) plan.times pins
      simp only [pinnedAt] at through
      simp only [through]

/-- Plans whose runs are the same have the same outcomes, however these are shared out. -/
theorem runAll_congr {other : Plan α}
    (same : ∀ number, plan.run source number = other.run source number) (runs workers : Nat)
    : plan.runAll source runs workers = other.runAll source runs workers := by
  have range (first count : Nat)
      : plan.runRange source first count = other.runRange source first count := by
    induction count generalizing first with
    | zero => rfl
    | succ count ih => simp only [runRange, same, ih]
  simp only [runAll, runChunks, range]

end Plan

-----------------------------------------------------------------------------------------
-- Scenarios
-----------------------------------------------------------------------------------------

namespace Scenario

variable {s : Scenario α} {graph : CausalGraph}

omit [Scalar α] in
/-- No branch overrides a parameter. -/
def KeepsParameters (s : Scenario α) : Prop :=
  ∀ b ∈ s.branches, ∀ p, .parameter p ∈ b.overrides →
    ∀ owner, .parameter owner ∈ s.quantities → p.name ≠ owner.name

theorem Accepted.keepsParameters (accepted : s.Accepted graph) (keeps : s.KeepsParameters)
    (order : List String) (times : List α) (seed : Int) (pins : Env α)
    : (Plan.ofScenario s order times seed pins).KeepsParameters := by
  rintro b branch q among kind ⟨owner, owns, name, sameKind⟩
  rw [accepted.owners_eq] at owns
  cases q with
  | parameter p =>
      cases owner with
      | parameter other => exact keeps b branch p among other owns name.symm
      | _ => cases sameKind
  | _ => cases kind

/-- What stands under a name in the defaults of the knobs is the declared value of the name. -/
theorem Accepted.lookup_defaults (accepted : s.Accepted graph) (source : RandomSource σ α)
    (certain : s.HasCertainConstants) {all : Env α}
    (declared : declaredFrom [] s.constants = .ok all) {knobs : List (Knob α)}
    (are : Knob.ofScenario s = .ok knobs) {name : String} {x : α}
    (pin : (Sensitivity.defaultPins knobs).lookup name = some x)
    : all.lookup name = some x := by
  obtain ⟨k, among, same⟩ := List.mem_map.mp (Entries.mem_of_lookup_ofList pin)
  obtain ⟨rfl, rfl⟩ := Prod.mk.inj same
  have entry : (k.name, some k.default) ∈ knobs.map fun k => (k.name, some k.default) :=
    List.mem_map_of_mem among
  rw [accepted.knobs_defaults source certain.stated declared are] at entry
  obtain ⟨p, -, same⟩ := List.mem_map.mp entry
  obtain ⟨named, value⟩ := Prod.mk.inj same
  exact named ▸ value

/-- A run with all knobs at their defaults is the run without any, be it that it stops. -/
theorem Accepted.run_defaults (accepted : s.Accepted graph) (certain : s.HasCertainConstants)
    (keeps : s.KeepsParameters) {knobs : List (Knob α)} (are : Knob.ofScenario s = .ok knobs)
    (source : RandomSource σ α) (times : List α) (seed : Int) (number : Nat)
    : (Plan.ofScenario s graph.order times seed (Sensitivity.defaultPins knobs)).run source number
      = (Plan.ofScenario s graph.order times seed []).run source number := by
  obtain ⟨all, declared⟩ := Knob.declared_of_collect (fun _ => constant_of_mem) certain.stated
    ((Knob.collect_filter [] s.quantities).trans are)
  refine Plan.run_pinnedAt (accepted.sound accepted.isOrder times seed [])
    (accepted.keepsParameters keeps graph.order times seed []) ?_
  rw [accepted.constants_eq]
  exact RunState.drawConstants_pinned certain.isCertain (fun _ => constant_of_mem)
    accepted.constants_distinct declared
    fun q _ x pin => accepted.lookup_defaults source certain declared are pin

/-- So is a simulation. -/
theorem Accepted.simulate_defaults (accepted : s.Accepted graph) (clean : s.check.errors = [])
    (checked : s.check.graph = some graph) (certain : s.HasCertainConstants)
    (keeps : s.KeepsParameters) {knobs : List (Knob α)} (are : Knob.ofScenario s = .ok knobs)
    (source : RandomSource σ α) (settings : Json α) (request : SimulationRequest α)
    : simulateChecked source settings { request with pins := Sensitivity.defaultPins knobs } s
          s.check
        = simulateChecked source settings { request with pins := [] } s s.check := by
  have all (times : List α) (seed : Int) (runs workers : Nat) :=
    Plan.runAll_congr (accepted.run_defaults certain keeps are source times seed) runs workers
  -- apart from the runs nothing reads the pins
  have size (times : List α) (seed : Int) (runs : Nat)
      : (Plan.ofScenario s graph.order times seed (Sensitivity.defaultPins knobs)).checkSize runs
        = (Plan.ofScenario s graph.order times seed []).checkSize runs := rfl
  have report (times : List α) (seed : Int)
      : SimulationResult.ofOutcomes s.name
          (Plan.ofScenario s graph.order times seed (Sensitivity.defaultPins knobs))
        = SimulationResult.ofOutcomes s.name (Plan.ofScenario s graph.order times seed []) := rfl
  simp only [simulateChecked, clean, checked, SimulationRequest.resolve, all, size, report]

/-- Simulations with all knobs at the defaults that are extracted for them are the scenario itself:
run by run they have the same samples and take the same branches, and they have the same report.
Nothing random enters the constants, parameters have values, and no branch overrides a parameter.
Witness: each default is the value that the run declares for its parameter, so all constants are
drawn alike, and what follows does not read pins.
-/
theorem simulations_at_defaults (s : Scenario α) (clean : s.check.errors = [])
    (certain : s.HasCertainConstants) (keeps : s.KeepsParameters) {knobs : List (Knob α)}
    (are : Knob.ofScenario s = .ok knobs)
    : ∃ graph, s.check.graph = some graph
        ∧ ∀ source : RandomSource σ α,
            (∀ (times : List α) (seed : Int) (number : Nat),
              (Plan.ofScenario s graph.order times seed (Sensitivity.defaultPins knobs)).run source
                  number
                = (Plan.ofScenario s graph.order times seed []).run source number)
            ∧ ∀ (settings : Json α) (request : SimulationRequest α),
                simulateChecked source settings
                    { request with pins := Sensitivity.defaultPins knobs } s s.check
                  = simulateChecked source settings { request with pins := [] } s s.check := by
  obtain ⟨graph, found, accepted⟩ := accepted_of_clean clean
  exact ⟨graph, found, fun source => ⟨accepted.run_defaults certain keeps are source,
    accepted.simulate_defaults clean found certain keeps are source⟩⟩

end Scenario

-----------------------------------------------------------------------------------------
-- A weir
-----------------------------------------------------------------------------------------

namespace Weir

open Harvest

/-- How far the weir is open, twice the rain, which a reader may change. -/
def opening : Parameter Int :=
  { parameter "opening" (.binary .mul (read "rain") (whole 2) none) with control := some .slider }

/-- What the basin holds, which reads the opening and has a range. -/
def basin : Parameter Int :=
  { parameter "basin" (read "opening") with range := some (whole 1, whole 20) }

/-- The level, which is drawn around what the basin holds. -/
def level : Variable Int :=
  varying "level" [⟨.ofYear 2025, read "basin"⟩] [] none

/-- The river without uncertainty, which the opening decides. -/
def river : Variable Int :=
  { varying "river" [⟨.ofYear 2025, read "opening"⟩] [] none with uncertainty := none }

/-- A drought that comes for sure once the river is above a number: it rains less. -/
def drought : Branch Int := {
  Harvest.drought with
  condition := .binary .gt (read "river") (whole 4) none
  overrides := [.assumption (River.assumed "rain" (whole 1))]
}

/-- A scenario with a weir and branches. -/
def weir (branches : List (Branch Int)) : Scenario Int :=
  scenario ([
    .quantity (.assumption (River.assumed "rain" (whole 3))),
    .quantity (.parameter opening),
    .quantity (.parameter basin),
    .quantity (.varying level),
    .quantity (.varying river)
  ] ++ branches.map .branch)

/-- Its order, with a drought and without. -/
def order : List String :=
  ["rain", "opening", "basin", "level", "river"]

/-- Both parameters can be changed, from where they are declared. -/
def knobs : List (Knob Int) :=
  [⟨"opening", "opening", 6, 0, 18⟩, ⟨"basin", "basin", 6, 1, 20⟩]

theorem dry_clean : (weir [drought]).check.errors = [] := by
  cbv

theorem dry_checked : (weir [drought]).check.graph = some ⟨order, [], order⟩ := by
  cbv

theorem dry_knobs : Knob.ofScenario (weir [drought]) = .ok knobs := by
  cbv

theorem weir_quantities (branches : List (Branch Int))
    : (weir branches).quantities
      = [.assumption (River.assumed "rain" (whole 3)), .parameter opening, .parameter basin,
          .varying level, .varying river] := by
  have others : (branches.map Declaration.branch).filterMap (·.quantity?) = [] := by
    rw [List.filterMap_map]
    exact List.filterMap_eq_nil_iff.mpr fun _ _ => rfl
  rw [Scenario.quantities, weir, Harvest.scenario, List.filterMap_append, others]
  rfl

theorem weir_certain (branches : List (Branch Int)) : (weir branches).HasCertainConstants := by
  intro q among constant
  rw [weir_quantities] at among
  simp only [List.mem_cons, List.not_mem_nil, or_false] at among
  rcases among with rfl | rfl | rfl | rfl | rfl
  · rfl
  · exact ⟨rfl, nofun⟩
  · exact ⟨rfl, nofun⟩
  · cases constant
  · cases constant

theorem dry_keeps : (weir [drought]).KeepsParameters := by
  intro b branch p among
  have branches : (weir [drought]).branches = [drought] := rfl
  rw [branches, List.mem_singleton] at branch
  subst branch
  cases among with
  | tail _ more => cases more

/-- The runs of the weir with both parameters at their defaults are those without pins. -/
theorem weir_at_defaults
    : (weir [drought]).check.errors = [] ∧ (weir [drought]).HasCertainConstants
        ∧ (weir [drought]).KeepsParameters ∧ Knob.ofScenario (weir [drought]) = .ok knobs
        ∧ ∃ outcome, Harvest.run (weir [drought]) order [] = .ok outcome
            ∧ outcome.activated = ["drought"]
            ∧ Harvest.run (weir [drought]) order (Sensitivity.defaultPins knobs) = .ok outcome := by
  refine ⟨dry_clean, weir_certain [drought], dry_keeps, dry_knobs, ?_⟩
  have taken : ((Harvest.run (weir [drought]) order []).map (·.activated)).toOption
      = some ["drought"] := by
    decide +kernel
  obtain ⟨graph, found, same⟩ := @Scenario.simulations_at_defaults Nat Int _ (weir [drought])
    dry_clean (weir_certain [drought]) dry_keeps knobs dry_knobs
  rw [dry_checked] at found
  cases found
  have alike := (same .counting).1 [2025, 2026] 7 0
  cases ran : Harvest.run (weir [drought]) order [] with
  | error halt =>
      rw [ran] at taken
      cases taken
  | ok outcome =>
      rw [ran] at taken
      exact ⟨outcome, rfl, Option.some.inj taken, alike.trans ran⟩

end Weir

end Prognosis
