import Prognosis.Check.Scenario
import Prognosis.Value.Halt

/-! What the runs of a simulation share: the declarations, an order of computation, the points
in time, the seed and the values that are pinned.
-/

namespace Prognosis

variable {α : Type}

/-- The plan that all runs of a simulation follow. -/
structure Plan (α : Type) where
  /-- The named values, each under the first declaration of its name. -/
  owners : List (Quantity α)
  /-- Names of the variables and impacts, in the order in which they are computed. -/
  order : List String
  branches : List (Branch α)
  /-- The points in time, on the axis of years. -/
  times : List α
  seed : Int
  /-- Values that take the place of parameters. -/
  pins : Env α

namespace Plan

/-- The first declaration of each name. -/
def firstOfName : List (Quantity α) → List (Quantity α) → List (Quantity α)
  | done, [] => done
  | done, q :: rest =>
      if done.any (·.name == q.name) then firstOfName done rest
      else firstOfName (done ++ [q]) rest

/-- The declaration that owns a name. -/
def owner? (plan : Plan α) (name : String) : Option (Quantity α) :=
  plan.owners.find? (·.name == name)

/-- Assumptions and parameters, in order; each reads only constants declared before it. -/
def constants (plan : Plan α) : List (Quantity α) :=
  plan.owners.filter (·.isConstant)

/-- Point in time at which growth starts. -/
def origin [Scalar α] (plan : Plan α) : α :=
  plan.times.head?.getD Scalar.undefined

/-- The plan of a scenario with an order of its names. -/
def ofScenario (s : Scenario α) (order : List String) (times : List α) (seed : Int)
    (pins : Env α) : Plan α :=
  let owners := firstOfName [] s.quantities
  let varying (name : String) : Bool :=
    owners.any fun q => q.name == name && !q.isConstant
  {
    owners := owners
    order := order.filter varying
    branches := s.branches
    times := times
    seed := seed
    pins := pins
  }

/-- Size in bytes of a table in which so many runs are kept. A value at a point in time takes
eight bytes; where nothing is computed, whether a branch was taken takes one.
-/
def tableSize (plan : Plan α) (runs : Nat) : Nat :=
  if !plan.order.isEmpty then runs * plan.times.length * 8
  else if !plan.branches.isEmpty then runs
  else 0

/-- Size in bytes that memory is taken to have. -/
def memorySize : Nat :=
  1 <<< 36

/-- The tables of so many runs can be laid out: their size is a machine integer, and memory
holds them.
-/
def checkSize (plan : Plan α) (runs : Nat) : Except Fault Unit :=
  let size := plan.tableSize runs
  if 1 <<< 63 ≤ size then .error .domain
  else if memorySize < size then .error .outOfMemory
  else .ok ()

end Plan

end Prognosis
