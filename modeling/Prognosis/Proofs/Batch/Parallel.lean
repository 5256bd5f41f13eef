import Prognosis.Proofs.Batch.Workers
import Prognosis.Proofs.Check.Graph

/-! Runs side by side leave what runs one after the other leave: each run is carried out once, each
cell of the tables gets one value from its own run, and no interleaving shows in the end.
-/

namespace Prognosis

variable {σ α : Type}

-----------------------------------------------------------------------------------------
-- Outcomes by number
-----------------------------------------------------------------------------------------

/-- Where only one number has something, a range has it once, if it reaches that number. -/
theorem flatMap_range_single {β : Type} {runs : Nat} (row : Nat) {f : Nat → List β}
    (others : ∀ number < runs, number ≠ row → f number = [])
    : (List.range runs).flatMap f = if row < runs then f row else [] := by
  induction runs with
  | zero => simp
  | succ runs ih =>
      rw [List.range_succ, List.flatMap_append, ih fun number less => others number (by omega)]
      by_cases last : row = runs
      · subst last
        simp
      · have nothing := others runs (Nat.lt_succ_self runs) (Ne.symm last)
        have same : row < runs + 1 ↔ row < runs := by omega
        simp [nothing, same]

/-- What is one thing at most can come in one order only. -/
theorem eq_of_perm_short {β : Type} {front other : List β} (perm : front.Perm other)
    (short : other.length ≤ 1)
    : front = other := by
  match other, short with
  | [], _ => exact perm.eq_nil
  | [_], _ => exact List.perm_singleton.mp perm

theorem getElem?_numbered {β : Type} {runs row : Nat} {f : Nat → β} {x : β}
    (found : ((List.range runs).map f)[row]? = some x)
    : row < runs ∧ x = f row := by
  obtain ⟨inside, rfl⟩ := List.getElem?_eq_some_iff.mp found
  exact ⟨by simpa using inside, by simp⟩

namespace Record

/-- A record holds what was written under the numbers of a list, and nothing else. By induction
along the numbers.
-/
theorem getElem?_writes (outcome : Nat → Outcome α) (numbers : List Nat) (record : Record α)
    (number : Nat)
    : ((numbers.map fun n => (n, outcome n)).foldl
          (fun record (number, outcome) => record.write number outcome) record).cells[number]?
      = record.cells[number]?.map fun old =>
          if number ∈ numbers then some (outcome number) else old := by
  induction numbers generalizing record with
  | nil => simp
  | cons n rest ih =>
      rw [List.map_cons, List.foldl_cons, ih]
      simp only [write, Array.getElem?_setIfInBounds]
      by_cases here : n = number
      · subst here
        by_cases inside : n < record.cells.size <;> simp [inside]
      · simp [here, Ne.symm here]

/-- A record with all numbers written is complete. -/
theorem complete?_writes (outcome : Nat → Outcome α) (runs : Nat)
    : (((List.range runs).map fun n => (n, outcome n)).foldl
          (fun record (number, outcome) => record.write number outcome) (empty runs)).complete?
      = some ((List.range runs).map outcome) := by
  rw [complete?]
  have cells : (((List.range runs).map fun n => (n, outcome n)).foldl
        (fun record (number, outcome) => record.write number outcome) (empty runs)).cells.toList
      = (List.range runs).map fun n => some (outcome n) := by
    refine List.ext_getElem? fun number => ?_
    rw [Array.getElem?_toList, getElem?_writes]
    by_cases inside : number < runs <;> simp [empty, inside]
  rw [cells, List.mapM_map]
  exact List.mapM_pure

end Record

namespace Plan

variable [Scalar α] {source : RandomSource σ α} {plan : Plan α} {outcome : Nat → Outcome α}

/-- Where no run halts, a range of runs gives their outcomes. By induction on their count. -/
theorem runRange_eq {first count : Nat}
    (ran
      : ∀ number, first ≤ number → number < first + count
          → plan.run source number = .ok (outcome number))
    : plan.runRange source first count
      = .ok ((List.range' first count).map fun n => (n, outcome n)) := by
  induction count generalizing first with
  | zero => rfl
  | succ count ih =>
      have later := @ih (first + 1) fun number lower upper =>
        ran number (by omega) (by omega)
      simp only [runRange, ran first (Nat.le_refl _) (by omega), later, List.range'_succ,
        List.map_cons]

/-- So do chunks of runs that are carried out side by side. By induction along the chunks. -/
theorem runChunks_eq (outcome : Nat → Outcome α) {chunks : List (Nat × Nat)}
    (ran
      : ∀ number ∈ chunks.flatMap (fun (first, count) => List.range' first count),
          plan.run source number = .ok (outcome number))
    : plan.runChunks source chunks
      = .ok ((chunks.flatMap fun (first, count) => List.range' first count).map
          fun n => (n, outcome n)) := by
  have each : (chunks.map fun (first, count) =>
        Task.spawn fun _ => plan.runRange source first count).mapM Task.get
      = .ok (chunks.map fun (first, count) =>
          (List.range' first count).map fun n => (n, outcome n)) := by
    induction chunks with
    | nil => rfl
    | cons chunk rest ih =>
        obtain ⟨first, count⟩ := chunk
        have here : plan.runRange source first count
            = .ok ((List.range' first count).map fun n => (n, outcome n)) :=
          runRange_eq fun number lower upper => ran number (List.mem_append_left _
            (List.mem_range'_1.mpr ⟨lower, upper⟩))
        have others := ih fun number member => ran number (List.mem_append_right _ member)
        rw [List.map_cons, List.mapM_cons, others]
        show (plan.runRange source first count >>= _) = _
        rw [here]
        rfl
  rw [runChunks, each, Except.map, List.map_flatMap, List.flatMap_def]

/-- All runs give their outcomes in order, whatever the number of workers is. -/
theorem runAll_eq {runs : Nat} (workers : Nat)
    (ran : ∀ number < runs, plan.run source number = .ok (outcome number))
    : plan.runAll source runs workers = .ok ((List.range runs).map outcome) := by
  have results : (if workers ≤ 1 || runs ≤ 1 then plan.runRange source 0 runs
        else plan.runChunks source (chunksOf (chunkBounds runs (min workers runs))))
      = .ok ((List.range runs).map fun n => (n, outcome n)) := by
    split
    case isTrue serial =>
      rw [runRange_eq fun number _ upper => ran number (by omega), List.range_eq_range']
    case isFalse several =>
      simp only [Bool.or_eq_true, decide_eq_true_eq, not_or, Nat.not_le] at several
      have split : IsSplit runs (chunkBounds runs (min workers runs)) :=
        isSplit_chunkBounds runs (by omega)
      rw [runChunks_eq outcome, split.flatMap]
      rw [split.flatMap]
      exact fun number member => ran number (List.mem_range.mp member)
  rw [runAll, results]
  simp only [Record.complete?_writes]

-----------------------------------------------------------------------------------------
-- All that is done
-----------------------------------------------------------------------------------------

/-- What the runs with numbers below a bound do, one after the other. -/
def allEvents (source : RandomSource σ α) (plan : Plan α) (runs : Nat) : List (Event α) :=
  (List.range runs).flatMap (plan.eventsOf source)

/-- What is told of all events is told of each run, one after the other. -/
theorem filterMap_allEvents (source : RandomSource σ α) (plan : Plan α) {β γ : Type}
    (told? : Deed α → Option β) (tell : Nat → β → γ) (runs : Nat)
    : (plan.allEvents source runs).filterMap (fun e => (told? e.deed).map (tell e.run))
      = (List.range runs).flatMap fun number =>
          ((plan.runTraced source number).deeds.filterMap told?).map (tell number) := by
  rw [allEvents, List.filterMap_flatMap]
  refine congrArg (List.flatMap · _) (funext fun number => ?_)
  rw [eventsOf, List.filterMap_map, List.map_filterMap]
  rfl

/-- All runs below a bound end, and each does what its outcome tells. -/
structure Ends (source : RandomSource σ α) (plan : Plan α) (runs : Nat)
    (outcome : Nat → Outcome α) : Prop where
  ran : ∀ number < runs, plan.run source number = .ok (outcome number)
  performs
    : ∀ number < runs,
        plan.Performs number (outcome number) (plan.runTraced source number).deeds

namespace Ends

variable {runs : Nat}

/-- Each run starts once. -/
theorem started (ends : plan.Ends source runs outcome)
    : (plan.allEvents source runs).filterMap Event.started? = List.range runs := by
  have each := filterMap_allEvents source plan Deed.started?
    (fun number _ => number) runs
  refine each.trans ?_
  have single : ∀ number ∈ List.range runs,
      ((plan.runTraced source number).deeds.filterMap Deed.started?).map (fun _ => number)
        = [number] := by
    intro number member
    rw [(ends.performs number (List.mem_range.mp member)).started]
    rfl
  rw [List.flatMap_congr single]
  simp

/-- Into a cell goes the value of its name in its run at its point in time. -/
theorem kept (ends : plan.Ends source runs outcome) (name : String) (row column : Nat)
    : (plan.allEvents source runs).filterMap (Event.kept? name row column)
      = if row < runs ∧ name ∈ plan.order
        then ((outcome row).steps[column]?.bind (·.lookup name)).toList.map fun x => (row, x)
        else [] := by
  have each := filterMap_allEvents source plan
    (Deed.kept? name row column) (fun number x => (number, x)) runs
  refine each.trans ?_
  rw [flatMap_range_single row]
  · by_cases inside : row < runs
    · rw [if_pos inside, (ends.performs row inside).kept]
      by_cases ordered : name ∈ plan.order <;> simp [inside, ordered]
    · simp [inside]
  · intro number less other
    rw [(ends.performs number less).kept]
    simp [Ne.symm other]

/-- A flag is set by its own run, if that takes the branch. -/
theorem marked (ends : plan.Ends source runs outcome) (branch : String) (row : Nat)
    : (plan.allEvents source runs).filterMap (Event.marked? branch row)
      = if row < runs ∧ branch ∈ (outcome row).activated then [row] else [] := by
  have each := filterMap_allEvents source plan
    (Deed.marked? branch row) (fun number _ => number) runs
  refine each.trans ?_
  rw [flatMap_range_single row]
  · by_cases inside : row < runs
    · rw [if_pos inside, (ends.performs row inside).marked]
      by_cases taken : branch ∈ (outcome row).activated <;> simp [inside, taken]
    · simp [inside]
  · intro number less other
    rw [(ends.performs number less).marked]
    simp [Ne.symm other]

end Ends

-----------------------------------------------------------------------------------------
-- Batches
-----------------------------------------------------------------------------------------

/-- What a batch of runs comes to. Each run starts once. Each cell of the table of each variable and
impact gets one value, from its own run, and it is the one that comes out of that run. Each flag
is set once, by its own run, where that takes the branch, and keeps the `false` that was laid out
where it does not. Nothing else is written.
-/
structure Completes (plan : Plan α) (outcomes : List (Outcome α)) (events : List (Event α))
    (tables : Tables α) : Prop where
  started : (events.filterMap Event.started?).Perm (List.range outcomes.length)
  kept
    : ∀ name ∈ plan.order, ∀ row outcome, outcomes[row]? = some outcome
        → ∀ column < plan.times.length, ∃ env value,
            outcome.steps[column]? = some env ∧ env.lookup name = some value
              ∧ events.filterMap (Event.kept? name row column) = [(row, value)]
              ∧ tables.cell? name row column = some (some value)
  keptInside
    : ∀ name row column, events.filterMap (Event.kept? name row column) ≠ []
        → name ∈ plan.order ∧ row < outcomes.length ∧ column < plan.times.length
  marked
    : ∀ b ∈ plan.branches, ∀ row outcome, outcomes[row]? = some outcome
        → (events.filterMap (Event.marked? b.name row)
              = if outcome.activated.contains b.name then [row] else [])
          ∧ tables.flag? b.name row = some (outcome.activated.contains b.name)
  markedInside
    : ∀ branch row, events.filterMap (Event.marked? branch row) ≠ []
        → branch ∈ plan.branches.map (·.name) ∧ row < outcomes.length

/-- The events of all runs, in any order, complete the tables that were laid out. -/
theorem Ends.completes {runs : Nat} (ends : plan.Ends source runs outcome)
    {events : List (Event α)} (all : events.Perm (plan.allEvents source runs))
    : plan.Completes ((List.range runs).map outcome) events
        ((Tables.blank plan runs).after events) := by
  have keptAll (name : String) (row column : Nat) :=
    ends.kept name row column ▸ all.filterMap (Event.kept? name row column)
  have markedAll (branch : String) (row : Nat) :=
    ends.marked branch row ▸ all.filterMap (Event.marked? branch row)
  refine ⟨?_, ?_, ?_, ?_, ?_⟩
  · simpa [ends.started] using all.filterMap Event.started?
  · intro name ordered row out found column inside
    obtain ⟨below, rfl⟩ := getElem?_numbered found
    have performs := ends.performs row below
    have there : column < (outcome row).steps.length := performs.length ▸ inside
    have step := List.getElem?_eq_getElem there
    obtain ⟨value, held⟩ := Option.ne_none_iff_exists'.mp
      (performs.present _ (List.getElem_mem there) name ordered)
    have once := keptAll name row column
    rw [if_pos ⟨below, ordered⟩, step, Option.bind_some, held] at once
    have only := List.perm_singleton.mp once
    refine ⟨_, value, step, held, only, ?_⟩
    rw [Tables.after_cell?, Tables.blank_cell? plan ordered below inside, only]
    rfl
  · intro name row column some
    have once := keptAll name row column
    by_cases inside : row < runs ∧ name ∈ plan.order
    · refine ⟨inside.2, by simpa using inside.1, ?_⟩
      by_contra outside
      have beyond : (outcome row).steps[column]? = none :=
        List.getElem?_eq_none ((ends.performs row inside.1).length ▸ Nat.not_lt.mp outside)
      rw [if_pos inside, beyond] at once
      exact some once.eq_nil
    · rw [if_neg inside] at once
      exact absurd once.eq_nil some
  · intro b member row out found
    obtain ⟨below, rfl⟩ := getElem?_numbered found
    have once := markedAll b.name row
    rw [Tables.after_flag?, Tables.blank_flag? plan (List.mem_map_of_mem member) below]
    by_cases taken : b.name ∈ (outcome row).activated
    · rw [if_pos ⟨below, taken⟩] at once
      have only := List.perm_singleton.mp once
      simp [only, taken]
    · rw [if_neg fun both => taken both.2] at once
      simp [once.eq_nil, taken]
  · intro branch row some
    have once := markedAll branch row
    by_cases inside : row < runs ∧ branch ∈ (outcome row).activated
    · exact ⟨(ends.performs row inside.1).taken branch inside.2, by simpa using inside.1⟩
    · rw [if_neg inside] at once
      exact absurd once.eq_nil some

/-- Events in another order leave the same tables, as each cell is written once. -/
theorem Ends.tables_eq {runs : Nat} (ends : plan.Ends source runs outcome)
    {events : List (Event α)} (all : events.Perm (plan.allEvents source runs))
    : (Tables.blank plan runs).after events
      = (Tables.blank plan runs).after (plan.allEvents source runs) := by
  refine Tables.eq_of_cells (fun name row => ?_) (fun name row column => ?_)
    fun branch row => ?_
  · rw [Tables.after_width, Tables.after_width]
  · have same : events.filterMap (Event.kept? name row column)
        = (plan.allEvents source runs).filterMap (Event.kept? name row column) := by
      refine eq_of_perm_short (all.filterMap _) ?_
      rw [ends.kept]
      split
      · cases (outcome row).steps[column]?.bind (·.lookup name) <;> simp
      · simp
    rw [Tables.after_cell?, Tables.after_cell?, same]
  · have same : events.filterMap (Event.marked? branch row)
        = (plan.allEvents source runs).filterMap (Event.marked? branch row) := by
      refine eq_of_perm_short (all.filterMap _) ?_
      rw [ends.marked]
      split <;> simp
    rw [Tables.after_flag?, Tables.after_flag?, same]

end Plan

/-- In a plan of a scenario that has a causal graph, the names that are computed are different, and
each has an owner.
-/
theorem Scenario.laid_of_check [Scalar α] {s : Scenario α} {graph : CausalGraph}
    (checked : s.check.graph = some graph) (times : List α) (seed : Int) (pins : Env α)
    : (Plan.ofScenario s graph.order times seed pins).Laid := by
  rcases ofScenario_cases s with ⟨order, ordered, found⟩ | ⟨cycle, failed, -⟩
  · rw [check_of_order ordered] at checked
    cases checked
    have distinct : order.Nodup := (isOrder_of_order found).nodes.nodup_iff.mpr s.nodes_nodup
    refine ⟨distinct.filter _, fun name member => ?_⟩
    have owned := (List.mem_filter.mp member).2
    obtain ⟨q, there, named⟩ := List.any_eq_true.mp owned
    simp only [Bool.and_eq_true, beq_iff_eq] at named
    exact ⟨q, there, named.1⟩
  · rw [check_of_cycle failed] at checked
    cases checked

/-- Runs side by side change nothing. Where no run halts, all numbers of workers give the same
outcomes; and whatever the chunks are, and however the workers that carry them out take turns in
what they do to the tables, each run is carried out once, each cell is written once and by its own
run, and in the end the tables are those that one worker leaves. Witness: all of it is done, in
some order, and no two deeds concern the same cell.
-/
theorem completes_of_interleaving [Scalar α] {s : Scenario α} {graph : CausalGraph}
    (checked : s.check.graph = some graph) (source : RandomSource σ α) (times : List α)
    (seed : Int) (pins : Env α) (runs : Nat)
    (ran
      : ∀ number < runs, ∃ outcome,
          (Plan.ofScenario s graph.order times seed pins).run source number = .ok outcome)
    : ∃ outcomes : List (Outcome α),
        outcomes.length = runs
          ∧ (∀ number outcome, outcomes[number]? = some outcome
              → (Plan.ofScenario s graph.order times seed pins).run source number = .ok outcome)
          ∧ (∀ workers,
              (Plan.ofScenario s graph.order times seed pins).runAll source runs workers
                = .ok outcomes)
          ∧ ∀ bounds events ended,
              Plan.IsSplit runs bounds
              → Workshop.Steps
                  ((Plan.ofScenario s graph.order times seed pins).workshop source runs bounds)
                  events ended
              → ended.Finished
              → (Plan.ofScenario s graph.order times seed pins).Completes outcomes events
                    ended.tables
                ∧ ended.tables
                  = (Plan.ofScenario s graph.order times seed pins).serialTables source runs := by
  have laid := Scenario.laid_of_check checked times seed pins
  generalize Plan.ofScenario s graph.order times seed pins = plan at laid ran ⊢
  have defaulted : Nonempty (Outcome α) := ⟨⟨[], []⟩⟩
  choose! outcome each using ran
  have ends : plan.Ends source runs outcome :=
    ⟨each, fun number below => laid.performs (each number below)⟩
  refine ⟨(List.range runs).map outcome, by simp, ?_, fun workers => Plan.runAll_eq workers each,
    ?_⟩
  · intro number out found
    obtain ⟨below, rfl⟩ := getElem?_numbered found
    exact each number below
  · intro bounds events ended split steps finished
    obtain ⟨done, tables⟩ := steps.perm_of_finished finished
    rw [Plan.flatten_pending split each] at done
    have serial : plan.serialTables source runs
        = (Tables.blank plan runs).after (plan.allEvents source runs) := by
      rw [Plan.serialTables,
        Plan.workOf_eq outcome fun number _ upper => each number (by omega),
        ← List.range_eq_range']
      rfl
    rw [serial, tables]
    exact ⟨ends.completes done, ends.tables_eq done⟩

/-- Three runs of the harvest, by two workers of which one carries out two of them. -/
theorem Scenario.harvest_completes
    : ∃ outcomes events ended,
        outcomes.length = 3
          ∧ Plan.IsSplit 3 [0, 1, 3]
          ∧ Workshop.Steps
              ((Plan.ofScenario Harvest.harvest Harvest.graph.order [2025, 2026] 7 []).workshop
                .counting 3 [0, 1, 3])
              events ended
          ∧ ended.Finished
          ∧ (Plan.ofScenario Harvest.harvest Harvest.graph.order [2025, 2026] 7 []).Completes
              outcomes events ended.tables := by
  have ran (number : Nat)
      : ∃ outcome, (Plan.ofScenario Harvest.harvest Harvest.graph.order [2025, 2026] 7 []).run
          .counting number = .ok outcome :=
    @Harvest.exists_outcome Harvest.harvest Harvest.graph.order [] (by decide +kernel)
  have split : Plan.IsSplit 3 [0, 1, 3] := ⟨rfl, rfl, by decide⟩
  obtain ⟨events, ended, steps, finished⟩ := Workshop.exists_finished
    ((Plan.ofScenario Harvest.harvest Harvest.graph.order [2025, 2026] 7 []).workshop
      .counting 3 [0, 1, 3])
  obtain ⟨outcomes, length, -, -, batch⟩ := completes_of_interleaving Harvest.harvest_checked
    .counting [2025, 2026] 7 [] 3 fun number _ => ran number
  exact ⟨outcomes, events, ended, length, split, steps, finished,
    (batch [0, 1, 3] events ended split steps finished).1⟩

end Prognosis
