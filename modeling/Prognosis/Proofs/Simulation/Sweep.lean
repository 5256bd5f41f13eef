import Mathlib.Logic.Function.Basic
import Prognosis.Proofs.Entries
import Prognosis.Proofs.Simulation.Reads

/-! Sweeps over named values, each drawn from a stream of its own with the values of names that
come before it. The values that a sweep leaves solve one equation for each name, so the order
in which it went does not show.
-/

namespace Prognosis

variable {σ α : Type}

-----------------------------------------------------------------------------------------
-- Cells and sweeps
-----------------------------------------------------------------------------------------

/-- A name with its stream, and how its value is drawn from the values of others. The draw
depends only on the names that it reads.
-/
structure Cell (σ α : Type) where
  name : String
  stream : String
  reads : List String
  draw : Env α → σ → Except Halt (α × σ)
  draw_congr : ∀ {env env' : Env α}, AgreeOn reads env env' → draw env = draw env'

/-- Draws cells in order, each with what was drawn before. -/
def sweep : List (Cell σ α) → Env α → (String → σ) → Except Halt (Env α × (String → σ))
  | [], env, streams => .ok (env, streams)
  | cell :: rest, env, streams =>
      match cell.draw env (streams cell.stream) with
      | .error halt => .error halt
      | .ok (x, s) =>
          sweep rest ((cell.name, x) :: env) (Function.update streams cell.stream s)

/-- Each cell reads only given names and the names of cells before it, and has a new name. -/
inductive Cell.Ready : (String → Prop) → List (Cell σ α) → Prop
  | nil {given} : Ready given []
  | cons {given cell rest} (reads : ∀ root ∈ cell.reads, given root)
    (new : ¬given cell.name) (others : Ready (fun name => given name ∨ name = cell.name) rest)
    : Ready given (cell :: rest)

namespace Cell.Ready

variable {given : String → Prop} {cells : List (Cell σ α)}

/-- Given names are not drawn, by induction along the cells. -/
theorem new_of_mem (ready : Ready given cells) {cell : Cell σ α} (member : cell ∈ cells)
    : ¬given cell.name := by
  induction ready with
  | nil => cases member
  | cons reads new others ih =>
      rcases List.mem_cons.mp member with rfl | later
      · exact new
      · exact fun known => ih later (Or.inl known)

/-- Cells are ready when their names are new and different, and each reads what is given or
stands before it.
-/
theorem of_split (distinct : (cells.map (·.name)).Nodup)
    (new : ∀ cell ∈ cells, ¬given cell.name)
    (reads
      : ∀ earlier cell later,
          cells = earlier ++ cell :: later
          → ∀ root ∈ cell.reads, given root ∨ root ∈ earlier.map (·.name))
    : Ready given cells := by
  induction cells generalizing given with
  | nil => exact .nil
  | cons cell rest ih =>
      obtain ⟨fresh, distinctRest⟩ := List.nodup_cons.mp distinct
      refine .cons ?_ (new cell (by simp)) (ih distinctRest ?_ ?_)
      · intro root read
        simpa using reads [] cell rest rfl root read
      · rintro other member (known | same)
        · exact new other (List.mem_cons_of_mem _ member) known
        · exact fresh (List.mem_map.mpr ⟨other, member, same⟩)
      · intro earlier other later split root read
        have before := reads (cell :: earlier) other later (by rw [split]; rfl) root read
        simpa [or_assoc] using before

end Cell.Ready

-----------------------------------------------------------------------------------------
-- Nothing is missing in a sweep
-----------------------------------------------------------------------------------------

/-- A sweep over ready cells misses nothing when no draw does whose names have values. What it
leaves has values for all names given or drawn. By induction along the cells.
-/
theorem sweep_resolves {given : String → Prop} {cells : List (Cell σ α)}
    (ready : Cell.Ready given cells)
    (draws
      : ∀ cell ∈ cells,
          ∀ env : Env α,
            (∀ root ∈ cell.reads, env.lookup root ≠ none)
            → ∀ s, Resolves (cell.draw env s) fun _ => True)
    {env : Env α} (known : ∀ name, given name → env.lookup name ≠ none) (streams : String → σ)
    : Resolves (sweep cells env streams) fun swept =>
        ∀ name, given name ∨ name ∈ cells.map (·.name) → swept.1.lookup name ≠ none := by
  induction ready generalizing env streams with
  | nil =>
      intro name either
      exact known name (either.resolve_right (by simp))
  | @cons given cell rest reads new others ih =>
      have first := draws cell (by simp) env (fun root read => known root (reads root read))
        (streams cell.stream)
      simp only [sweep]
      cases drawn : cell.draw env (streams cell.stream) with
      | error halt => exact first.reason drawn
      | ok result =>
          obtain ⟨x, s⟩ := result
          have grown (name : String) (either : given name ∨ name = cell.name)
              : List.lookup name ((cell.name, x) :: env) ≠ none := by
            by_cases same : name = cell.name
            · simp [same]
            · rw [Entries.lookup_cons_of_ne same]
              exact known name (either.resolve_right same)
          refine (ih (fun other member => draws other (List.mem_cons_of_mem _ member)) grown
            _).mono fun swept after name any => after name ?_
          rcases any with old | member
          · exact Or.inl (Or.inl old)
          · rcases List.mem_cons.mp member with same | later
            · exact Or.inl (Or.inr same)
            · exact Or.inr later

-----------------------------------------------------------------------------------------
-- What a sweep leaves
-----------------------------------------------------------------------------------------

/-- Values and streams after a sweep: each cell gives the value of its name when it is drawn
from its stream as it was, with the values as they are in the end. All else is as it was.
-/
structure Solved (cells : List (Cell σ α)) (before : Env α) (streamsBefore : String → σ)
    (after : Env α) (streamsAfter : String → σ)
    : Prop where
  drawn
    : ∀ cell ∈ cells,
        ∃ x, cell.draw after (streamsBefore cell.stream)
            = .ok (x, streamsAfter cell.stream)
          ∧ after.lookup cell.name = some x
  kept : ∀ name, (∀ cell ∈ cells, cell.name ≠ name) → after.lookup name = before.lookup name
  unmoved
    : ∀ stream, (∀ cell ∈ cells, cell.stream ≠ stream)
        → streamsAfter stream = streamsBefore stream

/-- What a sweep over ready cells with streams of their own leaves is a solution. Witness: by
induction along the cells; a cell reads only names that no later cell draws.
-/
theorem sweep_solved {given : String → Prop} {cells : List (Cell σ α)}
    (ready : Cell.Ready given cells) (apart : (cells.map (·.stream)).Nodup)
    {before after : Env α} {streamsBefore streamsAfter : String → σ}
    (swept : sweep cells before streamsBefore = .ok (after, streamsAfter))
    : Solved cells before streamsBefore after streamsAfter := by
  induction ready generalizing before streamsBefore with
  | nil =>
      cases swept
      exact ⟨by simp, fun _ _ => rfl, fun _ _ => rfl⟩
  | @cons given cell rest reads new others ih =>
      obtain ⟨own, apartRest⟩ := List.nodup_cons.mp apart
      simp only [sweep] at swept
      cases first : cell.draw before (streamsBefore cell.stream) with
      | error halt => simp [first] at swept
      | ok result =>
          obtain ⟨x, s⟩ := result
          simp only [first] at swept
          have solved := ih apartRest swept
          have later : ∀ other ∈ rest, other.stream ≠ cell.stream :=
            fun other member same => own (List.mem_map.mpr ⟨other, member, same⟩)
          have keeps (name : String) (old : given name ∨ name = cell.name)
              : after.lookup name = List.lookup name ((cell.name, x) :: before) :=
            solved.kept name fun other member same =>
              others.new_of_mem member (same ▸ old)
          refine ⟨?_, ?_, ?_⟩
          · intro other member
            rcases List.mem_cons.mp member with rfl | rest
            · refine ⟨x, ?_, ?_⟩
              · rw [solved.unmoved _ later, Function.update_self, ← first]
                refine congrFun (other.draw_congr fun root read => ?_) _
                have different : root ≠ other.name := fun same =>
                  new (same ▸ reads root read)
                rw [keeps root (Or.inl (reads root read)), Entries.lookup_cons_of_ne different]
              · rw [keeps other.name (Or.inr rfl)]
                simp
            · obtain ⟨y, drawn, found⟩ := solved.drawn other rest
              rw [Function.update_of_ne (later other rest)] at drawn
              exact ⟨y, drawn, found⟩
          · intro name other
            have different : name ≠ cell.name := (other cell (by simp)).symm
            rw [solved.kept name fun c member => other c (List.mem_cons_of_mem _ member),
              Entries.lookup_cons_of_ne different]
          · intro stream other
            rw [solved.unmoved stream fun c member => other c (List.mem_cons_of_mem _ member),
              Function.update_of_ne (Ne.symm (other cell (by simp)))]

-----------------------------------------------------------------------------------------
-- Two sweeps
-----------------------------------------------------------------------------------------

/-- Cells of two sweeps that belong to a scope correspond: they have the same stream and draw
alike, and they read only the scope. The streams of the scope are those of its names.
-/
structure Cell.Matched (scope streams : String → Prop) (cells others : List (Cell σ α))
    : Prop where
  reads : ∀ cell ∈ cells, scope cell.name → ∀ root ∈ cell.reads, scope root
  forward
    : ∀ cell ∈ cells, scope cell.name
        → ∃ other ∈ others, other.name = cell.name ∧ other.stream = cell.stream
            ∧ other.draw = cell.draw
  backward
    : ∀ other ∈ others, scope other.name
        → ∃ cell ∈ cells, cell.name = other.name ∧ cell.stream = other.stream
  own : ∀ cell ∈ cells, streams cell.stream → scope cell.name
  own' : ∀ other ∈ others, streams other.stream → scope other.name
  inside : ∀ cell ∈ cells, scope cell.name → streams cell.stream

namespace Solved

variable {scope within : String → Prop} {cells others : List (Cell σ α)}
  {before before' after after' : Env α} {streams streams' ended ended' : String → σ}

/-- Matched cells that read the same values give the same. -/
theorem cell_agree (matched : Cell.Matched scope within cells others)
    (solved : Solved cells before streams after ended)
    (solved' : Solved others before' streams' after' ended')
    (alike : ∀ stream, within stream → streams stream = streams' stream)
    {cell : Cell σ α} (member : cell ∈ cells) (inside : scope cell.name)
    (agree : AgreeOn cell.reads after after')
    : after.lookup cell.name = after'.lookup cell.name
      ∧ ended cell.stream = ended' cell.stream := by
  obtain ⟨other, found, sameName, sameStream, sameDraw⟩ :=
    matched.forward cell member inside
  obtain ⟨x, drawn, value⟩ := solved.drawn cell member
  obtain ⟨y, drawn', value'⟩ := solved'.drawn other found
  rw [sameStream, sameDraw, ← alike _ (matched.inside cell member inside),
    ← cell.draw_congr agree, drawn] at drawn'
  obtain ⟨rfl, sameEnd⟩ := Prod.mk.inj (Except.ok.inj drawn')
  rw [sameName] at value'
  exact ⟨value.trans value'.symm, sameEnd⟩

/-- So does a ready part of the cells, by induction along it: the solutions stay fixed while
the names that are known to agree grow from the front.
-/
theorem part_agree (matched : Cell.Matched scope within cells others)
    (solved : Solved cells before streams after ended)
    (solved' : Solved others before' streams' after' ended')
    (alike : ∀ stream, within stream → streams stream = streams' stream)
    {given : String → Prop} {part : List (Cell σ α)} (ready : Cell.Ready given part)
    (included : ∀ cell ∈ part, cell ∈ cells)
    (start : ∀ name, given name → scope name → after.lookup name = after'.lookup name)
    : ∀ cell ∈ part, scope cell.name
        → after.lookup cell.name = after'.lookup cell.name
          ∧ ended cell.stream = ended' cell.stream := by
  induction ready with
  | nil => simp
  | @cons given cell rest reads new others ih =>
      have member := included cell (by simp)
      have first (inside : scope cell.name) :=
        cell_agree matched solved solved' alike member inside fun root read =>
          start root (reads root read) (matched.reads cell member inside root read)
      intro other found inside
      rcases List.mem_cons.mp found with rfl | later
      · exact first inside
      · refine ih (fun c member => included c (List.mem_cons_of_mem _ member)) ?_ other
          later inside
        rintro name (old | rfl) within
        · exact start name old within
        · exact (first within).1

/-- Two solutions that start alike on a scope agree on it, in their values and in their
streams. Only the cells of one of them need to be ready: those of the other may come in any
order and among others.
-/
theorem agree {given : String → Prop} (ready : Cell.Ready given cells)
    (matched : Cell.Matched scope within cells others)
    (solved : Solved cells before streams after ended)
    (solved' : Solved others before' streams' after' ended')
    (start : ∀ name, scope name → before.lookup name = before'.lookup name)
    (alike : ∀ stream, within stream → streams stream = streams' stream)
    : (∀ name, scope name → after.lookup name = after'.lookup name)
      ∧ ∀ stream, within stream → ended stream = ended' stream := by
  have kept (name : String) (inside : scope name)
      (absent : ∀ cell ∈ cells, cell.name ≠ name)
      : after.lookup name = after'.lookup name := by
    have absent' : ∀ other ∈ others, other.name ≠ name := by
      rintro other found rfl
      obtain ⟨cell, member, same, -⟩ := matched.backward other found inside
      exact absent cell member same
    rw [solved.kept name absent, solved'.kept name absent', start name inside]
  have drawn := part_agree matched solved solved' alike ready (fun _ member => member)
    fun name old inside => kept name inside fun cell member same =>
      ready.new_of_mem member (same ▸ old)
  constructor
  · intro name inside
    by_cases present : ∃ cell ∈ cells, cell.name = name
    · obtain ⟨cell, member, rfl⟩ := present
      exact (drawn cell member inside).1
    · exact kept name inside fun cell member same => present ⟨cell, member, same⟩
  · intro stream inside
    by_cases present : ∃ cell ∈ cells, cell.stream = stream
    · obtain ⟨cell, member, rfl⟩ := present
      exact (drawn cell member (matched.own cell member inside)).2
    · have absent : ∀ cell ∈ cells, cell.stream ≠ stream :=
        fun cell member same => present ⟨cell, member, same⟩
      have absent' : ∀ other ∈ others, other.stream ≠ stream := by
        rintro other found rfl
        obtain ⟨cell, member, -, same⟩ :=
          matched.backward other found (matched.own' other found inside)
        exact absent cell member same
      rw [solved.unmoved stream absent, solved'.unmoved stream absent', alike stream inside]

end Solved

end Prognosis
