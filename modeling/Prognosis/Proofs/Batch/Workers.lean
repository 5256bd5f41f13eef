import Mathlib.Data.List.Basic
import Mathlib.Logic.Function.Basic
import Prognosis.Proofs.Batch.Deeds
import Prognosis.Proofs.Batch.Traced
import Prognosis.Simulation.Batch

/-! Workers that carry out chunks of runs side by side, in any interleaving of all that they do to
the tables. All runs share these tables, arrays that are laid out before any run starts: what is in
a cell is the last value that was put there. Whatever the interleaving is, the same is done as by
one worker.
-/

namespace Prognosis

variable {σ α : Type}

-----------------------------------------------------------------------------------------
-- Events
-----------------------------------------------------------------------------------------

/-- A deed with the number of the run that does it. -/
structure Event (α : Type) where
  run : Nat
  deed : Deed α

namespace Event

/-- The run that starts. -/
def started? (e : Event α) : Option Nat :=
  e.deed.started?.map fun _ => e.run

/-- The value that is put into a cell, with the run that puts it there. -/
def kept? (name : String) (row column : Nat) (e : Event α) : Option (Nat × α) :=
  (e.deed.kept? name row column).map fun value => (e.run, value)

/-- The run that sets the flag of a branch in a row. -/
def marked? (branch : String) (row : Nat) (e : Event α) : Option Nat :=
  (e.deed.marked? branch row).map fun _ => e.run

end Event

-----------------------------------------------------------------------------------------
-- Tables
-----------------------------------------------------------------------------------------

/-- For each name an array of rows, and for each branch an array of flags. A cell holds nothing
until a value is put there.
-/
structure Tables (α : Type) where
  samples : String → Array (Array (Option α))
  flags : String → Array Bool

namespace Tables

/-- Tables as they are laid out for a number of runs: no value is there, and no flag is set. -/
def blank (plan : Plan α) (runs : Nat) : Tables α := {
  samples := fun name =>
    if name ∈ plan.order then .replicate runs (.replicate plan.times.length none) else #[]
  flags := fun branch =>
    if branch ∈ plan.branches.map (·.name) then .replicate runs false else #[]
}

/-- Tables after a deed. -/
def act (tables : Tables α) : Deed α → Tables α
  | .start => tables
  | .keep name row column value => {
      tables with
      samples := Function.update tables.samples name
        ((tables.samples name).modify row (·.setIfInBounds column (some value)))
    }
  | .mark branch row => {
      tables with
      flags := Function.update tables.flags branch
        ((tables.flags branch).setIfInBounds row true)
    }

/-- Tables after events, one after the other. -/
def after (tables : Tables α) (events : List (Event α)) : Tables α :=
  events.foldl (fun tables e => tables.act e.deed) tables

/-- Length of a row, if there is such a row. -/
def width? (tables : Tables α) (name : String) (row : Nat) : Option Nat :=
  (tables.samples name)[row]?.map Array.size

/-- What is in a cell, if there is such a cell. -/
def cell? (tables : Tables α) (name : String) (row column : Nat) : Option (Option α) :=
  (tables.samples name)[row]?.bind (·[column]?)

/-- A flag, if there is one. -/
def flag? (tables : Tables α) (branch : String) (row : Nat) : Option Bool :=
  (tables.flags branch)[row]?

variable {tables other : Tables α}

/-- The cells that are laid out hold nothing. -/
theorem blank_cell? (plan : Plan α) {runs row column : Nat} {name : String}
    (ordered : name ∈ plan.order) (inside : row < runs) (width : column < plan.times.length)
    : (blank plan runs).cell? name row column = some none := by
  simp [cell?, blank, ordered, inside, width]

/-- The flags that are laid out are not set. -/
theorem blank_flag? (plan : Plan α) {runs row : Nat} {branch : String}
    (member : branch ∈ plan.branches.map (·.name)) (inside : row < runs)
    : (blank plan runs).flag? branch row = some false := by
  simp only [flag?, blank, if_pos member]
  simp [inside]

/-- Tables with rows of the same length, the same cells and the same flags are the same. -/
theorem eq_of_cells
    (widths : ∀ name row, tables.width? name row = other.width? name row)
    (cells : ∀ name row column, tables.cell? name row column = other.cell? name row column)
    (flags : ∀ branch row, tables.flag? branch row = other.flag? branch row)
    : tables = other := by
  have samples : tables.samples = other.samples := by
    funext name
    refine Array.ext_getElem? fun row => ?_
    have width := widths name row
    have columns := cells name row
    simp only [cell?] at columns
    simp only [width?] at width
    cases here : (tables.samples name)[row]? with
    | none =>
        rw [here] at width
        exact (Option.map_eq_none_iff.mp width.symm).symm
    | some cells =>
        rw [here] at width columns
        obtain ⟨cells', there, -⟩ := Option.map_eq_some_iff.mp width.symm
        rw [there] at columns ⊢
        exact congrArg some (Array.ext_getElem? columns)
  have marks : tables.flags = other.flags := by
    funext branch
    exact Array.ext_getElem? (flags branch)
  obtain ⟨_, _⟩ := tables
  cases samples
  cases marks
  rfl

/-- A deed changes no row's length. -/
theorem act_width (tables : Tables α) (deed : Deed α) (name : String) (row : Nat)
    : (tables.act deed).width? name row = tables.width? name row := by
  cases deed with
  | start | mark _ _ => rfl
  | keep other r c value =>
      by_cases same : name = other
      · subst same
        simp only [act, width?, Function.update_self, Array.getElem?_modify]
        split
        · simp [Option.map_map, Function.comp_def]
        · rfl
      · simp [act, width?, same]

/-- A deed changes the cell that it puts a value into, if there is such a cell. -/
theorem act_cell? (tables : Tables α) (deed : Deed α) (name : String) (row column : Nat)
    : (tables.act deed).cell? name row column
      = (tables.cell? name row column).map fun old => (deed.kept? name row column).or old := by
  cases deed with
  | start | mark _ _ => simp [act, Deed.kept?, cell?]
  | keep other r c value =>
      by_cases same : name = other
      · subst same
        simp only [act, cell?, Function.update_self, Array.getElem?_modify, Deed.kept?, true_and]
        by_cases here : r = row
        · subst here
          cases (tables.samples name)[r]? with
          | none => simp
          | some cells =>
              simp only [if_true, Option.map_some, Option.bind_some, true_and,
                Array.getElem?_setIfInBounds]
              by_cases there : c = column
              · subst there
                by_cases inside : c < cells.size <;> simp [inside]
              · simp [there]
        · simp [here]
      · simp [act, cell?, Deed.kept?, same, Ne.symm same]

/-- A deed sets the flag that it marks, if there is such a flag. -/
theorem act_flag? (tables : Tables α) (deed : Deed α) (branch : String) (row : Nat)
    : (tables.act deed).flag? branch row
      = (tables.flag? branch row).map fun old => (deed.marked? branch row).isSome || old := by
  cases deed with
  | start | keep _ _ _ _ => simp [act, Deed.marked?, flag?]
  | mark other r =>
      by_cases same : branch = other
      · subst same
        simp only [act, flag?, Function.update_self, Array.getElem?_setIfInBounds, Deed.marked?,
          true_and]
        by_cases here : r = row
        · subst here
          by_cases inside : r < (tables.flags branch).size <;> simp [inside]
        · simp [here]
      · simp [act, flag?, Deed.marked?, same, Ne.symm same]

/-- Events change no row's length, by induction along the events. -/
theorem after_width (tables : Tables α) (events : List (Event α)) (name : String) (row : Nat)
    : (tables.after events).width? name row = tables.width? name row := by
  induction events generalizing tables with
  | nil => rfl
  | cons e rest ih => exact (ih _).trans (act_width tables e.deed name row)

/-- In a cell is the last value that was put there. By induction along the events. -/
theorem after_cell? (tables : Tables α) (events : List (Event α)) (name : String)
    (row column : Nat)
    : (tables.after events).cell? name row column
      = (tables.cell? name row column).map fun old =>
          ((events.filterMap (Event.kept? name row column)).getLast?.map (·.2)).or old := by
  induction events generalizing tables with
  | nil => simp [after]
  | cons e rest ih =>
      have step : tables.after (e :: rest) = (tables.act e.deed).after rest := rfl
      rw [step, ih, act_cell?, Option.map_map, List.filterMap_cons, Event.kept?]
      refine congrArg (Option.map · _) (funext fun old => ?_)
      cases e.deed.kept? name row column with
      | none => rfl
      | some value =>
          simp only [Option.map_some, List.getLast?_cons, Function.comp_apply]
          cases (rest.filterMap (Event.kept? name row column)).getLast? <;> rfl

/-- A flag is set when some event set it. By induction along the events. -/
theorem after_flag? (tables : Tables α) (events : List (Event α)) (branch : String) (row : Nat)
    : (tables.after events).flag? branch row
      = (tables.flag? branch row).map fun old =>
          !(events.filterMap (Event.marked? branch row)).isEmpty || old := by
  induction events generalizing tables with
  | nil => simp [after]
  | cons e rest ih =>
      have step : tables.after (e :: rest) = (tables.act e.deed).after rest := rfl
      rw [step, ih, act_flag?, Option.map_map, List.filterMap_cons, Event.marked?]
      refine congrArg (Option.map · _) (funext fun old => ?_)
      cases e.deed.marked? branch row with
      | none => simp
      | some value => simp

end Tables

-----------------------------------------------------------------------------------------
-- Interleavings
-----------------------------------------------------------------------------------------

/-- Workers at work: what each of them has still to do, in its own order, and the tables. -/
structure Workshop (α : Type) where
  pending : List (List (Event α))
  tables : Tables α

namespace Workshop

/-- Any worker that has something left may do the next of it. -/
inductive Step : Workshop α → Event α → Workshop α → Prop
  | act (before : List (List (Event α))) (event : Event α) (rest : List (Event α))
    (after : List (List (Event α))) (tables : Tables α)
    : Step ⟨before ++ (event :: rest) :: after, tables⟩ event
        ⟨before ++ rest :: after, tables.act event.deed⟩

/-- Steps one after the other, with what is done in them. -/
inductive Steps : Workshop α → List (Event α) → Workshop α → Prop
  | none (w : Workshop α) : Steps w [] w
  | step {w next ended : Workshop α} {event : Event α} {events : List (Event α)}
    (first : Step w event next) (later : Steps next events ended)
    : Steps w (event :: events) ended

/-- Nothing is left to do. -/
def Finished (w : Workshop α) : Prop :=
  ∀ work ∈ w.pending, work = []

variable {w next ended : Workshop α} {event : Event α} {events : List (Event α)}

/-- A step takes one event from what is left and lets it act on the tables. -/
theorem Step.act_pending (step : Step w event next)
    : w.pending.flatten.Perm (event :: next.pending.flatten)
      ∧ next.tables = w.tables.act event.deed := by
  cases step with
  | act before event rest after tables =>
      refine ⟨?_, rfl⟩
      simp only [List.flatten_append, List.flatten_cons, List.cons_append]
      exact List.perm_middle

/-- Steps take their events from what is left and let them act in order. By induction along the
steps.
-/
theorem Steps.act_pending (steps : Steps w events ended)
    : w.pending.flatten.Perm (events ++ ended.pending.flatten)
      ∧ ended.tables = w.tables.after events := by
  induction steps with
  | none w => exact ⟨.refl _, rfl⟩
  | @step w next ended event events first later ih =>
      obtain ⟨taken, acted⟩ := first.act_pending
      obtain ⟨others, tables⟩ := ih
      refine ⟨taken.trans (others.cons event), ?_⟩
      rw [tables, acted]
      rfl

/-- When nothing is left, all that was to be done is done, in some order. -/
theorem Steps.perm_of_finished (steps : Steps w events ended) (finished : ended.Finished)
    : events.Perm w.pending.flatten ∧ ended.tables = w.tables.after events := by
  obtain ⟨perm, tables⟩ := steps.act_pending
  have nothing : ended.pending.flatten = [] := List.flatten_eq_nil_iff.mpr finished
  rw [nothing, List.append_nil] at perm
  exact ⟨perm.symm, tables⟩

/-- As long as something is left to do, some worker can do it. -/
theorem exists_step (unfinished : ¬w.Finished) : ∃ event next, Step w event next := by
  simp only [Finished, not_forall] at unfinished
  obtain ⟨work, member, left⟩ := unfinished
  obtain ⟨before, after, split⟩ := List.append_of_mem member
  obtain ⟨event, rest, rfl⟩ := List.exists_cons_of_ne_nil left
  obtain ⟨pending, tables⟩ := w
  cases split
  exact ⟨event, _, .act before event rest after tables⟩

/-- So some interleaving comes to its end, by induction on how much is left. -/
theorem exists_finished (w : Workshop α)
    : ∃ events ended, Steps w events ended ∧ ended.Finished := by
  induction size : w.pending.flatten.length generalizing w with
  | zero =>
      exact ⟨[], w, .none w, List.flatten_eq_nil_iff.mp (List.length_eq_zero_iff.mp size)⟩
  | succ n ih =>
      have unfinished : ¬w.Finished := by
        intro finished
        rw [List.flatten_eq_nil_iff.mpr finished] at size
        cases size
      obtain ⟨event, next, step⟩ := exists_step unfinished
      have less : next.pending.flatten.length = n := by
        have length := step.act_pending.1.length_eq
        rw [size, List.length_cons] at length
        exact (Nat.succ.inj length).symm
      obtain ⟨events, ended, later, finished⟩ := ih next less
      exact ⟨event :: events, ended, .step step later, finished⟩

end Workshop

-----------------------------------------------------------------------------------------
-- Chunks
-----------------------------------------------------------------------------------------

namespace Plan

/-- The bounds split the numbers of the runs into neighbouring chunks. -/
structure IsSplit (runs : Nat) (bounds : List Nat) : Prop where
  first : bounds.head? = some 0
  last : bounds.getLast? = some runs
  increasing : bounds.Pairwise (· ≤ ·)

/-- The bounds that are used split the numbers. -/
theorem isSplit_chunkBounds (runs : Nat) {chunks : Nat} (some : 0 < chunks)
    : IsSplit runs (chunkBounds runs chunks) := by
  refine ⟨by simp [chunkBounds, List.head?_range], ?_, ?_⟩
  · simp [chunkBounds, List.range_succ, Nat.mul_div_cancel_left runs some]
  · refine List.pairwise_map.mpr ((List.pairwise_le_range).imp fun less => ?_)
    exact Nat.div_le_div_right (Nat.mul_le_mul_right runs less)

/-- Neighbouring chunks contain each number between the outer bounds, in order. By induction along
the bounds.
-/
theorem flatMap_chunksOf {first last : Nat} {bounds : List Nat}
    (increasing : (first :: bounds).Pairwise (· ≤ ·))
    (ends : (first :: bounds).getLast? = some last)
    : (chunksOf (first :: bounds)).flatMap (fun (start, count) => List.range' start count)
      = List.range' first (last - first) := by
  induction bounds generalizing first with
  | nil =>
      cases ends
      simp [chunksOf]
  | cons next rest ih =>
      obtain ⟨before, later⟩ := List.pairwise_cons.mp increasing
      have ends : (next :: rest).getLast? = some last := by simpa using ends
      have upper : next ≤ last := by
        have among : last ∈ next :: rest := List.mem_of_getLast? ends
        rcases List.mem_cons.mp among with rfl | more
        · exact Nat.le_refl _
        · exact (List.pairwise_cons.mp later).1 last more
      have lower : first ≤ next := before next List.mem_cons_self
      rw [chunksOf, List.flatMap_cons, ih later ends]
      have start : next = first + 1 * (next - first) := by omega
      have count : last - first = (next - first) + (last - next) := by omega
      rw [count, ← List.range'_append, ← start]

theorem IsSplit.flatMap {runs : Nat} {bounds : List Nat} (split : IsSplit runs bounds)
    : (chunksOf bounds).flatMap (fun (start, count) => List.range' start count)
      = List.range runs := by
  obtain ⟨first, last, increasing⟩ := split
  cases bounds with
  | nil => cases first
  | cons start rest =>
      cases first
      rw [flatMap_chunksOf increasing last, List.range_eq_range', Nat.sub_zero]

variable [Scalar α] {source : RandomSource σ α} {plan : Plan α}

/-- What a run does. -/
def eventsOf (source : RandomSource σ α) (plan : Plan α) (number : Nat) : List (Event α) :=
  (plan.runTraced source number).deeds.map (⟨number, ·⟩)

/-- What a worker does that carries out runs with consecutive numbers. It stops at the first one
that halts.
-/
def workOf (source : RandomSource σ α) (plan : Plan α) (first : Nat) : Nat → List (Event α)
  | 0 => []
  | count + 1 =>
      plan.eventsOf source first
        ++ match (plan.runTraced source first).result with
          | .error _ => []
          | .ok _ => workOf source plan (first + 1) count

/-- Workers before any of them starts, one for each chunk between neighbouring bounds. -/
def workshop (source : RandomSource σ α) (plan : Plan α) (runs : Nat) (bounds : List Nat)
    : Workshop α := {
  pending := (chunksOf bounds).map fun (first, count) => plan.workOf source first count
  tables := .blank plan runs
}

/-- The tables that one worker leaves who carries out all runs in order. -/
def serialTables (source : RandomSource σ α) (plan : Plan α) (runs : Nat) : Tables α :=
  (Tables.blank plan runs).after (plan.workOf source 0 runs)

/-- Where no run halts, a worker does what each of its runs does. By induction on their count. -/
theorem workOf_eq (outcome : Nat → Outcome α) {first count : Nat}
    (ran
      : ∀ number, first ≤ number → number < first + count
          → plan.run source number = .ok (outcome number))
    : plan.workOf source first count
      = (List.range' first count).flatMap (plan.eventsOf source) := by
  induction count generalizing first with
  | zero => rfl
  | succ count ih =>
      have ended : (plan.runTraced source first).result = .ok (outcome first) :=
        (runTraced_result source plan first).trans (ran first (Nat.le_refl _) (by omega))
      have later := @ih (first + 1) fun number lower upper =>
        ran number (by omega) (by omega)
      simp only [workOf, ended, later, List.range'_succ, List.flatMap_cons]

theorem mem_chunksOf {first count : Nat} {bounds : List Nat}
    (member : (first, count) ∈ chunksOf bounds) (number : Nat) (lower : first ≤ number)
    (upper : number < first + count)
    : number ∈ (chunksOf bounds).flatMap (fun (start, count) => List.range' start count) :=
  List.mem_flatMap.mpr ⟨_, member, List.mem_range'_1.mpr ⟨lower, upper⟩⟩

/-- All workers together have to do what one worker has to do who carries out all runs. -/
theorem flatten_pending {outcome : Nat → Outcome α} {runs : Nat} {bounds : List Nat}
    (split : IsSplit runs bounds)
    (ran : ∀ number < runs, plan.run source number = .ok (outcome number))
    : (plan.workshop source runs bounds).pending.flatten
        = (List.range runs).flatMap (plan.eventsOf source) := by
  have works : (chunksOf bounds).map (fun (first, count) => plan.workOf source first count)
      = (chunksOf bounds).map fun (first, count) =>
          (List.range' first count).flatMap (plan.eventsOf source) := by
    refine List.map_congr_left fun (first, count) member => ?_
    refine workOf_eq outcome fun number lower upper => ran number ?_
    have among := mem_chunksOf member number lower upper
    rw [split.flatMap] at among
    exact List.mem_range.mp among
  rw [workshop, works, ← split.flatMap, ← List.flatMap_def, List.flatMap_assoc]

end Plan

end Prognosis
