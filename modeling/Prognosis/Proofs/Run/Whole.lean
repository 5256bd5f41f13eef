import Mathlib
import Prognosis.Proofs.Check.Soundness
import Prognosis.Proofs.Run.Standing
import Prognosis.Proofs.Scalar.Exact

/-! A source of whole numbers that counts, and a scenario that can be run with them step by step,
which runs over doubles cannot.
-/

namespace Prognosis

/-- Each stream counts from the length of its name on, and uniform numbers are zero. -/
def RandomSource.counting : RandomSource Nat Int := {
  stream := fun _ _ name => name.length
  unit := fun s => (0, s + 1)
  gauss := fun s => (s, s + 1)
  beta := fun _ _ s => (s, s + 1)
}

/-! ### A harvest -/

namespace Harvest

/-- The place at which everything stands. -/
def place : Span :=
  ⟨1, 1⟩

/-- Reads a name. -/
def read (name : String) : Expr Int :=
  .name (.ofRoot name) none

/-- A whole number. -/
def whole (n : Int) : Expr Int :=
  .number n none

/-- A normal distribution around a value. -/
def spread (n : Int) : Distribution Int :=
  ⟨.normal, [whole n], [], place⟩

/-- An assumption about the weather, drawn around a number. -/
def rain (n : Int) : Assumption Int := {
  name := "rain"
  value := some (whole n)
  byDate := none
  source := some "almanac"
  confidence := none
  uncertainty := some (spread 1)
  binding := none
  watch := none
  span := place
}

/-- A parameter with a value. -/
def parameter (name : String) (value : Expr Int) : Parameter Int := {
  name := name
  value := some value
  range := none
  uncertainty := none
  description := none
  label := none
  unit := none
  step := none
  source := none
  format := none
  control := none
  icon := none
  color := none
  span := place
}

/-- A variable with an anchor, or with a model. -/
def varying (name : String) (anchors : List (Anchor Int)) (dependsOn : List Path)
    (model : Option (Model Int)) : Variable Int := {
  name := name
  anchors := anchors
  dependsOn := dependsOn
  model := model
  uncertainty := some (spread 1)
  interpolation := none
  description := none
  unit := none
  label := none
  icon := none
  color := none
  span := place
}

/-- The crop, which the rain alone decides before it is drawn. -/
def crop : Variable Int :=
  varying "crop" [⟨.ofYear 2025, read "rain"⟩] [] none

/-- The stock, which grows by what a name gives. -/
def stock (slope : String) : Variable Int :=
  varying "stock" [] [.ofRoot slope] (some ⟨.linear, [("slope", read slope)], place⟩)

/-- An impact of other values. -/
def impact (name : String) (derivesFrom : List Path) (formula : Option (Expr Int))
    : Impact Int := {
  name := name
  derivesFrom := derivesFrom
  formula := formula
  description := none
  unit := none
  label := none
  icon := none
  color := none
  span := place
}

/-- What the crop and the stock bring in. -/
def income : Impact Int :=
  impact "income" [.ofRoot "crop", .ofRoot "stock", .ofRoot "price"]
    (some (.binary .add (.binary .mul (read "crop") (read "price") none) (read "stock") none))

/-- What the fields cost, as a sum without a formula. -/
def upkeep : Impact Int :=
  impact "upkeep" [.ofRoot "rain", .ofRoot "price"] none

/-- A drought once the crop is above a number: it rains less, stocks grow with the rain, and
reserves are worth more, where there are any.
-/
def drought : Branch Int := {
  name := "drought"
  condition := .binary .gt (read "crop") (whole 4) none
  probability := some 1
  fork := none
  overrides := [
    .assumption (rain 1),
    .varying (stock "rain"),
    .parameter (parameter "reserve" (whole 6))
  ]
  span := place
}

/-- A scenario of the declarations, over two years. -/
def scenario (declarations : List (Declaration Int)) : Scenario Int := {
  name := "harvest"
  metadata := { Metadata.empty with timeframe := some ⟨.ofYear 2025, .ofYear 2026⟩ }
  declarations := declarations
  span := place
}

/-- The scenario of the harvest. Nothing reads its spare parameter. -/
def harvest : Scenario Int :=
  scenario [
    .quantity (.assumption (rain 3)),
    .quantity (.parameter (parameter "price" (whole 2))),
    .quantity (.parameter (parameter "spare" (whole 9))),
    .quantity (.impact income),
    .quantity (.impact upkeep),
    .quantity (.varying (stock "crop")),
    .quantity (.varying crop),
    .branch drought
  ]

/-- Its causal graph. -/
def graph : CausalGraph := {
  nodes := ["rain", "price", "spare", "income", "upkeep", "stock", "crop"]
  edges := [
    ("crop", "income"),
    ("stock", "income"),
    ("price", "income"),
    ("rain", "upkeep"),
    ("price", "upkeep"),
    ("crop", "stock")
  ]
  order := ["rain", "price", "spare", "crop", "stock", "income", "upkeep"]
}

/-- A run of a scenario over two years, in the given order and with the given pins. -/
def run (s : Scenario Int) (order : List String) (pins : Env Int)
    : Except Halt (Outcome Int) :=
  (Plan.ofScenario s order [2025, 2026] 7 pins).run .counting 0

theorem exists_outcome {s : Scenario Int} {order : List String} {pins : Env Int}
    (ends : (run s order pins).isOk = true)
    : ∃ outcome, run s order pins = .ok outcome := by
  cases ran : run s order pins with
  | error halt =>
      rw [ran] at ends
      cases ends
  | ok outcome => exact ⟨outcome, rfl⟩

theorem harvest_wordNames : harvest.WordNames := by
  have words : ∀ name ∈ graph.nodes, IsWord name := by decide
  exact fun q member => words q.name (List.mem_map_of_mem (f := Quantity.name) member)

theorem harvest_clean : harvest.check.errors = [] := by
  cbv

theorem harvest_checked : harvest.check.graph = some graph := by
  cbv

end Harvest

end Prognosis

/-! What a scenario without errors asks for by name is there whenever a run asks for it. -/

namespace Prognosis

namespace Scenario

/-- A scenario that is checked without an error has a causal graph. No run in the order of that
graph stops for want of a name or a function, whatever the points in time, the seed, the pinned
values and the numbers that the streams give. Witness: plans in that order are sound, and the
steps of a run keep its state valid.
-/
theorem runs_resolve {σ α : Type} [Scalar α] (s : Scenario α) (clean : s.check.errors = [])
    : ∃ graph, s.check.graph = some graph
        ∧ ∀ (source : RandomSource σ α) (times : List α) (seed : Int) (pins : Env α)
            (number : Nat) (halt : Halt),
              (Plan.ofScenario s graph.order times seed pins).run source number = .error halt
              → (∀ path, halt ≠ .error (.unknownName path))
                ∧ ∀ function, halt ≠ .error (.unknownFunction function) := by
  obtain ⟨graph, found, accepted⟩ := accepted_of_clean clean
  refine ⟨graph, found, fun source times seed pins number halt stopped => ?_⟩
  have sound : (Plan.ofScenario s graph.order times seed pins).Sound :=
    accepted.sound accepted.isOrder _ _ _
  have known := (sound.run_resolves source number).reason stopped
  constructor
  · rintro path rfl
    exact known trivial
  · rintro function rfl
    exact known trivial

/-- The harvest is checked without an error, so none of its runs misses a name. -/
theorem harvest_runs_resolve
    : ∃ graph, Harvest.harvest.check.graph = some graph
        ∧ ∀ (source : RandomSource Nat Int) (times : List Int) (seed : Int) (pins : Env Int)
            (number : Nat) (halt : Halt),
              (Plan.ofScenario Harvest.harvest graph.order times seed pins).run source number
                = .error halt
              → (∀ path, halt ≠ .error (.unknownName path))
                ∧ ∀ function, halt ≠ .error (.unknownFunction function) :=
  runs_resolve Harvest.harvest Harvest.harvest_clean

end Scenario

end Prognosis
