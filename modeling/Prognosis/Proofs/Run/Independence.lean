import Prognosis.Proofs.Run.Whole
import Prognosis.Simulation

/-! Runs do not show in which order the variables and impacts of a scenario are computed, as long
as everything comes after what it depends on.
-/

namespace Prognosis

open RunState

namespace Scenario

section Orders

variable {σ α : Type} [Scalar α] {s : Scenario α} {graph : CausalGraph}

/-- All that a scenario declares, with all branches and streams, is separate from the rest. No
name of a branch matters, as no stream is left out.
-/
theorem Accepted.separate_of_declares (accepted : s.Accepted graph) (words : s.WordNames)
    {order : List String} {times : List α} {seed : Int} {pins : Env α}
    : (⟨s.Declares, fun _ => True, fun _ => True⟩ : Scope).Separate
        (Plan.ofScenario s order times seed pins) := {
  apart := fun _ _ => (accepted.wordNames words).apart
  streams := fun _ held => by
    obtain ⟨owner, owns, named, -⟩ := held.replaces
    rw [accepted.owners_eq] at owns
    exact iff_of_true trivial ⟨owner, owns, named⟩
  gates := fun _ _ => .rfl
  overrides := fun _ _ _ _ _ _ => trivial
}

/-- Plans in two orders that respect the dependencies share all that the scenario declares. -/
theorem Accepted.share_of_orders (accepted : s.Accepted graph) (words : s.WordNames)
    {order order' : List String} (ordered : s.dependencies.IsOrder order)
    (ordered' : s.dependencies.IsOrder order') (times : List α) (seed : Int) (pins : Env α)
    : (Plan.ofScenario s order times seed pins).Share ⟨s.Declares, fun _ => True, fun _ => True⟩
        (Plan.ofScenario s order' times seed pins) := {
  alike := {
    owners := fun q member _ => ⟨q, member, rfl⟩
    branches := rfl
    times := rfl
    seed := rfl
    pins := fun _ _ => rfl
  }
  closed := accepted.closed_of_declares ordered _ _
  separate := accepted.separate_of_declares words
  separateOther := accepted.separate_of_declares words
  sound := accepted.sound ordered _ _ _
  soundOther := accepted.sound ordered' _ _ _
}

/-- In whatever order the nodes are computed, if each comes after all that it depends on, runs
give the same samples and take the same branches. Names are words, as in all texts. Witness:
both runs agree on all declared values, streams and branches after each point in time; within
one, every value depends on final values and on a stream that no other name draws from.
-/
theorem run_eq_of_orders (words : s.WordNames) (clean : s.check.errors = [])
    {order order' : List String} (ordered : s.dependencies.IsOrder order)
    (ordered' : s.dependencies.IsOrder order') (source : RandomSource σ α) (times : List α)
    (seed : Int) (pins : Env α) (number : Nat) {outcome outcome' : Outcome α}
    (ran : (Plan.ofScenario s order times seed pins).run source number = .ok outcome)
    (ran' : (Plan.ofScenario s order' times seed pins).run source number = .ok outcome')
    : outcome.SameSamples s.Declares outcome'
      ∧ ∀ branch, branch ∈ outcome.activated ↔ branch ∈ outcome'.activated := by
  obtain ⟨graph, -, accepted⟩ := accepted_of_clean clean
  have share := accepted.share_of_orders words ordered ordered' times seed pins
  obtain ⟨samples, taken⟩ := Plan.run_agree share source number ran ran'
  exact ⟨samples, fun branch => taken branch trivial⟩

end Orders

end Scenario

namespace Harvest

/-- Another order of the harvest, which computes the upkeep first. -/
def upkeepFirst : List String :=
  ["price", "rain", "upkeep", "crop", "stock", "income", "spare"]

end Harvest

/-- The harvest has the same samples and drought where the upkeep is computed first. -/
theorem Scenario.harvest_run_eq_of_orders
    : ∃ outcome outcome',
        Harvest.run Harvest.harvest Harvest.graph.order [] = .ok outcome
        ∧ Harvest.run Harvest.harvest Harvest.upkeepFirst [] = .ok outcome'
        ∧ outcome.SameSamples Harvest.harvest.Declares outcome'
        ∧ ∀ branch, branch ∈ outcome.activated ↔ branch ∈ outcome'.activated := by
  have ends : (Harvest.run Harvest.harvest Harvest.graph.order []).isOk = true := by
    decide +kernel
  have ends' : (Harvest.run Harvest.harvest Harvest.upkeepFirst []).isOk = true := by
    decide +kernel
  obtain ⟨outcome, ran⟩ := Harvest.exists_outcome ends
  obtain ⟨outcome', ran'⟩ := Harvest.exists_outcome ends'
  have ordered : Harvest.harvest.dependencies.IsOrder Harvest.graph.order :=
    Dependencies.isOrder_of_respects (by cbv) (by cbv)
  have ordered' : Harvest.harvest.dependencies.IsOrder Harvest.upkeepFirst :=
    Dependencies.isOrder_of_respects (by cbv) (by cbv)
  exact ⟨outcome, outcome', ran, ran', Scenario.run_eq_of_orders Harvest.harvest_wordNames
    Harvest.harvest_clean ordered ordered' .counting _ 7 [] 0 ran ran'⟩

end Prognosis

/-! Pinned values show only where they are read. What a pin changes stays outside every part of a
scenario that is closed under reading, through constants, anchors, models, formulas and branches.
-/

namespace Prognosis

open RunState

namespace Scenario

section Runs

variable {σ α : Type} [Scalar α] {s : Scenario α} {graph : CausalGraph}

/-- Plans whose pins agree on a part that is closed under reading share its scope. -/
theorem Accepted.share_of_reading (accepted : s.Accepted graph) (words : s.WordNames)
    (plain : ∀ b ∈ s.branches, HasNoSlash b.name) {names : String → Prop}
    (closed : s.ClosedUnderReading names) {pins pins' : Env α}
    (pinned : ∀ name, names name → pins.lookup name = pins'.lookup name) (times : List α)
    (seed : Int)
    : (Plan.ofScenario s graph.order times seed pins).Share
        (Scope.of names (s.Touches names))
        (Plan.ofScenario s graph.order times seed pins') := {
  alike := {
    owners := fun q member _ => ⟨q, member, rfl⟩
    branches := rfl
    times := rfl
    seed := rfl
    pins := pinned
  }
  closed := accepted.closed_of_reading closed
  separate := accepted.separate_of_reading words plain closed
  separateOther := accepted.separate_of_reading words plain closed
  sound := accepted.sound accepted.isOrder _ _ _
  soundOther := accepted.sound accepted.isOrder _ _ _
}

/-- Pins of a name that nothing reads leave all others as they are. -/
theorem samples_eq_of_unread (words : s.WordNames)
    (plain : ∀ b ∈ s.branches, HasNoSlash b.name) (accepted : s.Accepted graph)
    {unread : String} (declarations : ∀ q ∈ s.quantities, unread ∉ q.reads)
    (overrides : ∀ b ∈ s.branches, ∀ q ∈ b.overrides, unread ∉ q.reads)
    (conditions : ∀ b ∈ s.branches, unread ∉ b.condition.roots) {pins pins' : Env α}
    (pinned : ∀ name, name ≠ unread → pins.lookup name = pins'.lookup name)
    (source : RandomSource σ α) (times : List α) (seed : Int) (number : Nat)
    {outcome outcome' : Outcome α}
    (ran : (Plan.ofScenario s graph.order times seed pins).run source number = .ok outcome)
    (ran' : (Plan.ofScenario s graph.order times seed pins').run source number = .ok outcome')
    : outcome.SameSamples (fun name => s.Declares name ∧ name ≠ unread) outcome' := by
  have closed := accepted.closed_of_unread declarations overrides conditions
  have share := accepted.share_of_reading words plain closed
    (fun name inside => pinned name inside.2) times seed
  exact (Plan.run_agree share source number ran ran').1

/-- Runs with pins that agree on a part that is closed under reading give it the same samples,
where names are words as in all texts. Witness: both runs agree on the part and on the branches
that touch it, step by step; all other draws are made from other streams.
-/
theorem samples_eq_of_pins_eq (words : s.WordNames)
    (plain : ∀ b ∈ s.branches, HasNoSlash b.name) (clean : s.check.errors = [])
    (checked : s.check.graph = some graph) {names : String → Prop}
    (closed : s.ClosedUnderReading names) {pins pins' : Env α}
    (pinned : ∀ name, names name → pins.lookup name = pins'.lookup name)
    (source : RandomSource σ α) (times : List α) (seed : Int) (number : Nat)
    {outcome outcome' : Outcome α}
    (ran : (Plan.ofScenario s graph.order times seed pins).run source number = .ok outcome)
    (ran' : (Plan.ofScenario s graph.order times seed pins').run source number = .ok outcome')
    : outcome.SameSamples names outcome' := by
  obtain ⟨found, same, accepted⟩ := accepted_of_clean clean
  rw [checked] at same
  cases same
  have share := accepted.share_of_reading words plain closed pinned times seed
  exact (Plan.run_agree share source number ran ran').1

end Runs

end Scenario

/-- The weather and the crop of the harvest read neither the price nor the spare parameter, so
pins of these leave them as they are, also after the drought.
-/
theorem Scenario.harvest_samples_eq_of_pins_eq
    : ∃ outcome outcome',
        Harvest.run Harvest.harvest Harvest.graph.order [("price", 5)] = .ok outcome
        ∧ Harvest.run Harvest.harvest Harvest.graph.order [("spare", 1)] = .ok outcome'
        ∧ outcome.SameSamples (· ∈ ["rain", "crop"]) outcome' := by
  have ends : (Harvest.run Harvest.harvest Harvest.graph.order [("price", 5)]).isOk = true := by
    decide +kernel
  have ends' : (Harvest.run Harvest.harvest Harvest.graph.order [("spare", 1)]).isOk = true := by
    decide +kernel
  obtain ⟨outcome, ran⟩ := Harvest.exists_outcome ends
  obtain ⟨outcome', ran'⟩ := Harvest.exists_outcome ends'
  have pinned (name : String) (member : name ∈ ["rain", "crop"])
      : List.lookup name [("price", (5 : Int))] = List.lookup name [("spare", 1)] := by
    rcases List.mem_cons.mp member with rfl | rest
    · rfl
    · rw [List.mem_singleton.mp rest]
      rfl
  exact ⟨outcome, outcome', ran, ran', Scenario.samples_eq_of_pins_eq Harvest.harvest_wordNames
    (by decide) Harvest.harvest_clean Harvest.harvest_checked
    (Scenario.closesUnderReading_iff.mp (by cbv)) pinned .counting _ 7 0 ran ran'⟩

end Prognosis

/-! Declarations can be added to a scenario and put in another order without a change to the
samples of what was there before, as long as its branches and metadata stay.
-/

namespace Prognosis

open RunState

namespace Scenario

section Extensions

variable {σ α : Type} [Scalar α] {s t : Scenario α} {graph graph' : CausalGraph}

/-- Points in time that the metadata of a scenario ask for. -/
def times (s : Scenario α) : Except Fault (List α) :=
  (timeline s.metadata.timeframe s.metadata.resolution).map (·.map Date.yearFraction)

/-- The other scenario has the same metadata and the same branches in the same order, and all
named values of the scenario, in whatever order and among others. Places in the text may differ.
-/
structure Extends (t s : Scenario α) : Prop where
  metadata : s.metadata = t.metadata
  branches : s.branches.map Branch.unplaced = t.branches.map Branch.unplaced
  quantities : ∀ q ∈ s.quantities, ∃ same ∈ t.quantities, same.unplaced = q.unplaced

omit [Scalar α] in
/-- Each branch of the other scenario has the name of one of the first. -/
theorem Extends.branch_name (extension : t.Extends s) {b : Branch α} (branch : b ∈ t.branches)
    : ∃ same ∈ s.branches, same.name = b.name := by
  have member : b.unplaced ∈ s.branches.map Branch.unplaced := by
    rw [extension.branches]
    exact List.mem_map_of_mem branch
  obtain ⟨same, found, equal⟩ := List.mem_map.mp member
  exact ⟨same, found, (Branch.parts_eq_of_unplaced equal).1⟩

/-- The scope of all that a scenario declares, with its branches. -/
def wholeScope (s : Scenario α) : Scope :=
  Scope.of s.Declares fun branch => ∃ b ∈ s.branches, b.name = branch

/-- In an extension it is separate from the rest. -/
theorem Extends.separate (extension : t.Extends s) (accepted : t.Accepted graph)
    (words : s.WordNames) (wordsOther : t.WordNames)
    (plain : ∀ b ∈ s.branches, HasNoSlash b.name) {order : List String} {times : List α}
    {seed : Int} {pins : Env α}
    : s.wholeScope.Separate (Plan.ofScenario t order times seed pins) := by
  apply Plan.separate_of (accepted.wordNames wordsOther)
  · rintro name ⟨q, member, rfl⟩
    exact words q member
  · rintro branch ⟨b, member, rfl⟩
    exact plain b member
  · intro b branch
    obtain ⟨same, found, named⟩ := extension.branch_name branch
    exact named ▸ plain same found
  · intro b branch _ _ _ _
    exact extension.branch_name branch

omit [Scalar α] in
theorem Extends.refl (s : Scenario α) : s.Extends s :=
  ⟨rfl, rfl, fun q member => ⟨q, member, rfl⟩⟩

/-- A plan of the scenario and a plan of an extension share all that the scenario declares. -/
theorem Extends.share (extension : t.Extends s) (accepted : s.Accepted graph)
    (acceptedOther : t.Accepted graph') (words : s.WordNames) (wordsOther : t.WordNames)
    (plain : ∀ b ∈ s.branches, HasNoSlash b.name) (times : List α) (seed : Int) (pins : Env α)
    : (Plan.ofScenario s graph.order times seed pins).Share s.wholeScope
        (Plan.ofScenario t graph'.order times seed pins) := {
  alike := {
    owners := fun q member _ => by
      rw [accepted.owners_eq] at member
      rw [acceptedOther.owners_eq]
      exact extension.quantities q member
    branches := extension.branches
    times := rfl
    seed := rfl
    pins := fun _ _ => rfl
  }
  closed := accepted.closed_of_declares accepted.isOrder _ _
  separate := (Extends.refl s).separate accepted words words plain
  separateOther := extension.separate acceptedOther words wordsOther plain
  sound := accepted.sound accepted.isOrder _ _ _
  soundOther := acceptedOther.sound acceptedOther.isOrder _ _ _
}

/-- What a scenario declares has the same samples in all its extensions, where names are words as
in all texts. Witness: declarations read declared names only, so that nothing of the extension
reaches them, neither by an order of computation nor by a stream.
-/
theorem samples_eq_of_extends (extension : t.Extends s) (words : s.WordNames)
    (wordsOther : t.WordNames) (plain : ∀ b ∈ s.branches, HasNoSlash b.name)
    (clean : s.check.errors = []) (cleanOther : t.check.errors = [])
    (checked : s.check.graph = some graph) (checkedOther : t.check.graph = some graph')
    {times timesOther : List α} (timed : s.times = .ok times)
    (timedOther : t.times = .ok timesOther) (source : RandomSource σ α) (seed : Int)
    (pins : Env α) (number : Nat) {outcome outcome' : Outcome α}
    (ran : (Plan.ofScenario s graph.order times seed pins).run source number = .ok outcome)
    (ran'
      : (Plan.ofScenario t graph'.order timesOther seed pins).run source number = .ok outcome')
    : outcome.SameSamples s.Declares outcome' := by
  have same : times = timesOther := by
    have equal : s.times = t.times := by simp only [Scenario.times, extension.metadata]
    rw [equal, timedOther] at timed
    cases timed
    rfl
  subst same
  obtain ⟨_, found, accepted⟩ := accepted_of_clean clean
  obtain ⟨_, foundOther, acceptedOther⟩ := accepted_of_clean cleanOther
  rw [checked] at found
  rw [checkedOther] at foundOther
  cases found
  cases foundOther
  have share := extension.share accepted acceptedOther words wordsOther plain times seed pins
  exact (Plan.run_agree share source number ran ran').1

end Extensions

end Scenario

namespace Harvest

/-- The harvest in another order, with a reserve that the drought replaces, and with a total. -/
def larger : Scenario Int :=
  scenario [
    .quantity (.varying crop),
    .quantity (.impact (impact "total" [.ofRoot "income", .ofRoot "reserve"] none)),
    .quantity (.parameter (parameter "spare" (whole 9))),
    .quantity (.parameter (parameter "reserve" (read "spare"))),
    .quantity (.parameter (parameter "price" (whole 2))),
    .branch drought,
    .quantity (.impact upkeep),
    .quantity (.assumption (rain 3)),
    .quantity (.varying (stock "crop")),
    .quantity (.impact income)
  ]

/-- Its causal graph. -/
def largerGraph : CausalGraph := {
  nodes := [
    "crop",
    "total",
    "spare",
    "reserve",
    "price",
    "upkeep",
    "rain",
    "stock",
    "income"
  ]
  edges := [
    ("income", "total"),
    ("reserve", "total"),
    ("rain", "upkeep"),
    ("price", "upkeep"),
    ("crop", "stock"),
    ("crop", "income"),
    ("stock", "income"),
    ("price", "income")
  ]
  order := [
    "crop",
    "stock",
    "price",
    "income",
    "reserve",
    "total",
    "spare",
    "rain",
    "upkeep"
  ]
}

theorem larger_extends : larger.Extends harvest := by
  refine ⟨rfl, rfl, fun q member => ⟨q, ?_, rfl⟩⟩
  have members : harvest.quantities ⊆ larger.quantities := by
    simp [harvest, larger, scenario, Scenario.quantities, Declaration.quantity?]
  exact members member

theorem larger_wordNames : larger.WordNames := by
  have words : ∀ name ∈ largerGraph.nodes, IsWord name := by decide
  exact fun q member => words q.name (List.mem_map_of_mem (f := Quantity.name) member)

theorem larger_clean : larger.check.errors = [] := by
  cbv

theorem larger_checked : larger.check.graph = some largerGraph := by
  cbv

end Harvest

/-- What the harvest declares has the same samples in the larger one, with a pinned price. -/
theorem Scenario.harvest_samples_eq_in_larger
    : ∃ outcome outcome',
        Harvest.run Harvest.harvest Harvest.graph.order [("price", 4)] = .ok outcome
        ∧ Harvest.run Harvest.larger Harvest.largerGraph.order [("price", 4)] = .ok outcome'
        ∧ outcome.SameSamples Harvest.harvest.Declares outcome' := by
  have ends : (Harvest.run Harvest.harvest Harvest.graph.order [("price", 4)]).isOk = true := by
    decide +kernel
  have ends'
      : (Harvest.run Harvest.larger Harvest.largerGraph.order [("price", 4)]).isOk = true := by
    decide +kernel
  obtain ⟨outcome, ran⟩ := Harvest.exists_outcome ends
  obtain ⟨outcome', ran'⟩ := Harvest.exists_outcome ends'
  have timed : Harvest.harvest.times = .ok [2025, 2026] := by cbv
  have timed' : Harvest.larger.times = .ok [2025, 2026] := by cbv
  exact ⟨outcome, outcome', ran, ran', Scenario.samples_eq_of_extends Harvest.larger_extends
    Harvest.harvest_wordNames Harvest.larger_wordNames (by decide) Harvest.harvest_clean
    Harvest.larger_clean Harvest.harvest_checked Harvest.larger_checked timed timed' .counting 7
    _ 0 ran ran'⟩

end Prognosis
