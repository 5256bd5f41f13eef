import Prognosis.Simulation.Run

/-! All runs of a simulation. They may be split into chunks that are computed side by side; the
outcome of each run is recorded under its number, so the split does not show.
-/

namespace Prognosis

variable {σ α : Type} [Scalar α]

/-- Outcomes by the numbers of their runs, as far as they are known. -/
structure Record (α : Type) where
  cells : Array (Option (Outcome α))

namespace Record

/-- A record for so many runs, without any outcome yet. -/
def empty (runs : Nat) : Record α :=
  ⟨Array.replicate runs none⟩

/-- Writes the outcome of a run under its number. -/
def write (record : Record α) (number : Nat) (outcome : Outcome α) : Record α :=
  ⟨record.cells.setIfInBounds number (some outcome)⟩

/-- All outcomes in the order of their numbers, once none is missing. -/
def complete? (record : Record α) : Option (List (Outcome α)) :=
  record.cells.toList.mapM id

end Record

namespace Plan

/-- Outcomes of runs with consecutive numbers, each with its number. -/
def runRange (source : RandomSource σ α) (plan : Plan α) (first : Nat)
    : Nat → Except Halt (List (Nat × Outcome α))
  | 0 => .ok []
  | count + 1 =>
      match plan.run source first with
      | .error halt => .error halt
      | .ok outcome =>
          match runRange source plan (first + 1) count with
          | .error halt => .error halt
          | .ok others => .ok ((first, outcome) :: others)

/-- Bounds of neighbouring chunks of nearly equal size. -/
def chunkBounds (runs chunks : Nat) : List Nat :=
  (List.range (chunks + 1)).map fun i => i * runs / chunks

/-- First numbers of neighbouring chunks with their lengths. -/
def chunksOf : List Nat → List (Nat × Nat)
  | first :: next :: rest => (first, next - first) :: chunksOf (next :: rest)
  | _ => []

/-- Outcomes of chunks that are computed side by side. Of several failures that of the first
chunk counts.
-/
def runChunks (source : RandomSource σ α) (plan : Plan α) (chunks : List (Nat × Nat))
    : Except Halt (List (Nat × Outcome α)) :=
  let tasks := chunks.map fun (first, count) =>
    Task.spawn fun _ => plan.runRange source first count
  (tasks.mapM Task.get).map List.flatten

/-- Outcomes of all runs in the order of their numbers. -/
def runAll (source : RandomSource σ α) (plan : Plan α) (runs workers : Nat)
    : Except Halt (List (Outcome α)) :=
  let results :=
    if workers ≤ 1 || runs ≤ 1 then plan.runRange source 0 runs
    else plan.runChunks source (chunksOf (chunkBounds runs (min workers runs)))
  match results with
  | .error halt => .error halt
  | .ok outcomes =>
      let record := outcomes.foldl (fun record (number, outcome) => record.write number outcome)
        (Record.empty runs)
      match record.complete? with
      | some all => .ok all
      | none => .error (.fault .broken)

end Plan

end Prognosis
