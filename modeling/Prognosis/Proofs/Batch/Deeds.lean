import Prognosis.Proofs.Batch.Traced

/-! What a run that ends has done to the tables: it started once, it put each value that came out
of it into a cell of its own row, and it set the flags of the branches that it took.
-/

namespace Prognosis

variable {σ α : Type}

-----------------------------------------------------------------------------------------
-- Values under names
-----------------------------------------------------------------------------------------

/-- Values found in a row of different names are those that are kept under them, also once the row
was put in front of other values. By induction along the row.
-/
theorem filterMap_kept {found : List (String × α)} (distinct : (found.map (·.1)).Nodup)
    (env : Env α) (number column c row : Nat) (name : String)
    : (found.map fun (key, x) => Deed.keep key number column x).filterMap
          (Deed.kept? name row c)
        = if row = number ∧ c = column ∧ name ∈ found.map (·.1)
          then ((found.reverse ++ env).lookup name).toList
          else [] := by
  induction found generalizing env with
  | nil => simp
  | cons entry rest ih =>
      obtain ⟨key, x⟩ := entry
      obtain ⟨fresh, others⟩ := List.nodup_cons.mp distinct
      have later := ih others ((key, x) :: env)
      simp only [List.map_cons, List.filterMap_cons, later, List.reverse_cons, List.append_assoc,
        List.singleton_append, List.mem_cons]
      by_cases here : key = name
      · subst here
        have unseen : rest.reverse.lookup key = none :=
          List.lookup_eq_none_iff.mpr fun entry member => by
            have among : entry.1 ∈ rest.map (·.1) :=
              List.mem_map_of_mem (List.mem_reverse.mp member)
            simpa using fun same : key = entry.1 => fresh (same ▸ among)
        by_cases cell : row = number ∧ c = column
        · obtain ⟨rfl, rfl⟩ := cell
          simp [Deed.kept?, fresh, List.lookup_append, unseen]
        · have apart : ¬(number = row ∧ column = c) := fun ⟨a, b⟩ => cell ⟨a.symm, b.symm⟩
          rw [if_neg fun inside => cell ⟨inside.1, inside.2.1⟩,
            if_neg fun inside => cell ⟨inside.1, inside.2.1⟩]
          simp [Deed.kept?, apart]
      · have other : Deed.kept? name row c (Deed.keep key number column x) = none := by
          simp [Deed.kept?, here]
        simp only [other, Ne.symm here, false_or]

variable [Scalar α]

namespace RunState

variable {source : RandomSource σ α} {opened : String → σ} {pins env values : Env α}
  {state ended : RunState σ α} {number column : Nat} {time origin : α}

-----------------------------------------------------------------------------------------
-- Names that are in force
-----------------------------------------------------------------------------------------

/-- Each of the names has a declaration in force. -/
def Holds (names : List String) (state : RunState σ α) : Prop :=
  ∀ name ∈ names, state.inForce.lookup name ≠ none

theorem variableBase_setting {v : Variable α} {x : α}
    (based : state.variableBase v env time origin = .ok (x, ended))
    : SameSetting state ended := by
  simp only [variableBase, anchoredValue] at based
  cases anchors : v.anchors with
  | cons first rest =>
      simp only [anchors] at based
      cases known : state.interpolants.lookup v.name with
      | some f =>
          simp only [known] at based
          cases based
          exact ⟨rfl, rfl, rfl, rfl⟩
      | none =>
          simp only [known] at based
          cases built : v.interpolant state.constants with
          | error halt => simp [built] at based
          | ok f =>
              simp only [built] at based
              cases based
              exact ⟨rfl, rfl, rfl, rfl⟩
  | nil =>
      cases model : v.model with
      | none =>
          simp only [anchors, model] at based
          cases based
          exact ⟨rfl, rfl, rfl, rfl⟩
      | some m =>
          simp only [anchors, model] at based
          obtain ⟨y, -, same⟩ := exists_of_map_eq_ok based
          cases same
          exact ⟨rfl, rfl, rfl, rfl⟩

/-- The value of a declaration leaves all but streams and remembered functions. -/
theorem quantityValue_setting {current : InForce α} {x : α}
    (valued : state.quantityValue source opened current env time origin = .ok (x, ended))
    : SameSetting state ended := by
  obtain ⟨declaration, stream⟩ := current
  cases declaration with
  | assumption a | parameter p =>
      cases valued
      exact ⟨rfl, rfl, rfl, rfl⟩
  | impact i =>
      obtain ⟨y, -, same⟩ := exists_of_map_eq_ok valued
      cases same
      exact ⟨rfl, rfl, rfl, rfl⟩
  | varying v =>
      simp only [quantityValue] at valued
      cases based : state.variableBase v env time origin with
      | error halt => simp [based] at valued
      | ok result =>
          obtain ⟨base, next⟩ := result
          have left := variableBase_setting based
          cases uncertain : v.uncertainty with
          | none =>
              simp only [based, uncertain] at valued
              cases valued
              exact left
          | some d =>
              simp only [based, uncertain, drawFrom_eq] at valued
              obtain ⟨⟨y, s⟩, -, same⟩ := exists_of_map_eq_ok valued
              cases same
              exact left.trans ⟨rfl, rfl, rfl, rfl⟩

/-- A declaration in the place of another one leaves a declaration for each name. -/
theorem override_holds {names : List String} {branch : String} {nested : Quantity α}
    (holds : state.Holds names)
    (done : override source opened pins branch state nested = .ok ended)
    : ended.Holds names := by
  have put (name : String) (member : name ∈ names) (current : InForce α)
      : (state.inForce.put nested.name current).lookup name ≠ none := by
    by_cases same : name = nested.name
    · rw [same, Entries.lookup_put_self]
      simp
    · rw [Entries.lookup_put_of_ne _ _ same]
      exact holds name member
  rcases override_cases source opened pins branch state nested with
    ⟨-, same⟩ | ⟨current, -, -, ⟨-, same⟩ | ⟨-, same⟩⟩
  · rw [same] at done
    cases done
    exact holds
  · rw [same] at done
    cases done
    exact fun name member => put name member _
  · rw [same] at done
    obtain ⟨⟨x, s⟩, -, rfl⟩ := exists_of_map_eq_ok done
    exact fun name member => put name member _

theorem overrideAll_holds {names : List String} {branch : String} {nested : List (Quantity α)}
    (holds : state.Holds names)
    (done : overrideAll source opened pins branch state nested = .ok ended)
    : ended.Holds names := by
  induction nested generalizing state with
  | nil =>
      cases done
      exact holds
  | cons q rest ih =>
      obtain ⟨middle, first, later⟩ := overrideAll_cons_ok done
      exact ih (override_holds holds first) later

theorem decideAll_holds {names : List String} {branches : List (Branch α)}
    (holds : state.Holds names)
    (done : decideAll source opened pins env state branches = .ok ended)
    : ended.Holds names := by
  induction branches generalizing state with
  | nil =>
      cases done
      exact holds
  | cons b rest ih =>
      obtain ⟨middle, first, later⟩ := decideAll_cons_ok done
      refine ih ?_ later
      cases decide_looked first with
      | known | waiting | refused => exact holds
      | taken _ _ _ replaced =>
          have taking : ((state.gated source opened b.name).taking b.name).Holds names := holds
          exact overrideAll_holds taking replaced

-----------------------------------------------------------------------------------------
-- A point in time
-----------------------------------------------------------------------------------------

/-- Computing names keeps the values that it finds, one for each name, in order. By induction along
the names.
-/
theorem computeTraced_deeds (number column : Nat) {names : List String} (holds : state.Holds names)
    (computed
      : state.computeAll source opened time origin names env = .ok (values, ended))
    : ∃ found : List (String × α),
        (computeTraced source opened number column time origin names env state).deeds
            = found.map (fun (key, x) => .keep key number column x)
          ∧ found.map (·.1) = names
          ∧ values = found.reverse ++ env
          ∧ SameSetting state ended := by
  induction names generalizing state env with
  | nil =>
      cases computed
      exact ⟨[], rfl, rfl, rfl, rfl, rfl, rfl, rfl⟩
  | cons name rest ih =>
      obtain ⟨current, inForce⟩ :=
        Option.ne_none_iff_exists'.mp (holds name List.mem_cons_self)
      simp only [computeAll, inForce] at computed
      cases valued : state.quantityValue source opened current env time origin with
      | error halt => simp [valued] at computed
      | ok result =>
          obtain ⟨x, next⟩ := result
          simp only [valued] at computed
          have setting := quantityValue_setting valued
          have holdsNext : next.Holds rest := fun other member => by
            rw [setting.inForce]
            exact holds other (List.mem_cons_of_mem _ member)
          obtain ⟨found, deeds, named, grown, later⟩ := ih holdsNext computed
          refine ⟨(name, x) :: found, ?_, by simp [named], by simp [grown],
            setting.trans later⟩
          simp only [computeTraced, inForce, valued, Traced.silent_bind, Traced.note_bind_deeds,
            deeds, List.map_cons]

/-- A look sets the flag of its branch where it is taken, and does nothing else. -/
theorem decideTraced_deeds (number : Nat) {b : Branch α}
    (done : decide source opened pins env state b = .ok ended)
    : (decideTraced source opened number pins env state b).deeds = []
        ∧ ended.activated = state.activated
      ∨ (decideTraced source opened number pins env state b).deeds = [.mark b.name number]
        ∧ ended.activated = b.name :: state.activated ∧ b.name ∉ state.decided := by
  cases decide_looked done with
  | known decided => exact Or.inl ⟨by simp [decideTraced, decided], rfl⟩
  | waiting fresh fails =>
      obtain ⟨x, value, fails⟩ := fails
      exact Or.inl ⟨by simp [decideTraced, fresh, value, fails], rfl⟩
  | refused fresh holds above =>
      obtain ⟨x, value, holds⟩ := holds
      refine Or.inl ⟨?_, rfl⟩
      simp only [Branch.accepts, Bool.not_eq_false', gateDraw, streamAt] at above
      simp [decideTraced, fresh, value, holds, drawFrom, above]
  | taken fresh holds below replaced =>
      obtain ⟨x, value, holds⟩ := holds
      refine Or.inr ⟨?_, (overrideAll_branches replaced).2, fresh⟩
      simp only [Branch.accepts, Bool.not_eq_true', gateDraw, streamAt] at below
      simp [decideTraced, fresh, value, holds, drawFrom, below]

-----------------------------------------------------------------------------------------
-- Looks at branches
-----------------------------------------------------------------------------------------

/-- A stage of a run sets the flag of each branch that it adds to those taken, once and in the row
of the run, and it adds no branch that was decided before.
-/
structure Marks (number : Nat) (deeds : List (Deed α)) (state ended : RunState σ α) : Prop where
  marked
    : ∀ branch row,
        deeds.filterMap (Deed.marked? branch row)
          = if row = number ∧ branch ∈ ended.activated ∧ branch ∉ state.activated then [()] else []
  grown : ∀ branch ∈ state.activated, branch ∈ ended.activated
  known
    : (∀ branch ∈ state.activated, branch ∈ state.decided)
        → ∀ branch ∈ ended.activated, branch ∈ ended.decided

omit [Scalar α] in
/-- Where no flag is set and no branch becomes known, there is nothing to say. -/
theorem Marks.of_same {deeds : List (Deed α)}
    (silent : ∀ branch row, deeds.filterMap (Deed.marked? branch row) = [])
    (same : ended.activated = state.activated)
    (decided : ∀ branch ∈ state.decided, branch ∈ ended.decided)
    : Marks number deeds state ended := {
  marked := by
    intro branch row
    rw [silent, same]
    simp
  grown := by
    rw [same]
    exact fun _ member => member
  known := by
    rw [same]
    exact fun known branch member => decided branch (known branch member)
}

omit [Scalar α] in
/-- Stages in a row. A branch that the first one adds is not added again. -/
theorem Marks.trans {deeds others : List (Deed α)} {middle : RunState σ α}
    (first : Marks number deeds state middle) (second : Marks number others middle ended)
    : Marks number (deeds ++ others) state ended := {
  marked := by
    intro branch row
    rw [List.filterMap_append, first.marked, second.marked]
    by_cases own : row = number
    · by_cases before : branch ∈ state.activated
      · simp [before, first.grown branch before]
      · by_cases between : branch ∈ middle.activated
        · simp [own, before, between, second.grown branch between]
        · simp [own, before, between]
    · simp [own]
  grown := fun branch member => second.grown branch (first.grown branch member)
  known := fun known => second.known (first.known known)
}

/-- Looks set the flags of the branches that are taken, by induction along the branches. -/
theorem decideAllTraced_marks {branches : List (Branch α)}
    (known : ∀ branch ∈ state.activated, branch ∈ state.decided)
    (done : decideAll source opened pins env state branches = .ok ended)
    : Marks number (decideAllTraced source opened number pins env state branches).deeds
        state ended := by
  induction branches generalizing state with
  | nil =>
      cases done
      exact .of_same (by simp [decideAllTraced]) rfl fun _ member => member
  | cons b rest ih =>
      obtain ⟨middle, first, later⟩ := decideAll_cons_ok done
      rw [decideAllTraced, Traced.bind_deeds ((decideTraced_result pins env state b).trans first)]
      have looked : Marks number (decideTraced source opened number pins env state b).deeds
          state middle := by
        rcases decideTraced_deeds number first with
          ⟨nothing, same⟩ | ⟨marked, taken, fresh⟩
        · rw [nothing]
          refine .of_same (fun _ _ => rfl) same fun branch member => ?_
          rcases (decide_looked first).branches with ⟨decided, -⟩ | ⟨decided, -⟩
          · exact decided ▸ member
          · exact decided ▸ List.mem_cons_of_mem _ member
        · have new : b.name ∉ state.activated := fun member => fresh (known _ member)
          refine ⟨fun branch row => ?_, ?_, ?_⟩
          · rw [marked, taken]
            by_cases own : b.name = branch
            · subst own
              by_cases here : number = row <;> simp [Deed.marked?, here, new, eq_comm]
            · simp [Deed.marked?, own, Ne.symm own]
          · exact fun branch member => taken ▸ List.mem_cons_of_mem _ member
          · intro _ branch member
            rcases (decide_looked first).branches with ⟨-, same⟩ | ⟨decided, -⟩
            · exact absurd (same ▸ taken) (by simp)
            · rw [decided]
              rw [taken] at member
              rcases List.mem_cons.mp member with rfl | old
              · exact List.mem_cons_self
              · exact List.mem_cons_of_mem _ (known branch old)
      exact looked.trans (ih (looked.known known) later)

/-- Only branches of the plan are taken, by induction along the branches. -/
theorem decideAll_taken {branches : List (Branch α)}
    (done : decideAll source opened pins env state branches = .ok ended)
    : ∀ branch ∈ ended.activated,
        branch ∈ state.activated ∨ branch ∈ branches.map (·.name) := by
  induction branches generalizing state with
  | nil =>
      cases done
      exact fun _ member => Or.inl member
  | cons b rest ih =>
      obtain ⟨middle, first, later⟩ := decideAll_cons_ok done
      intro branch member
      rcases ih later branch member with before | after
      · rcases (decide_looked first).branches with ⟨-, same⟩ | ⟨-, same | same⟩
        · exact Or.inl (same ▸ before)
        · exact Or.inl (same ▸ before)
        · rcases List.mem_cons.mp (same ▸ before) with rfl | old
          · exact Or.inr List.mem_cons_self
          · exact Or.inl old
      · exact Or.inr (List.mem_cons_of_mem _ after)

/-- Nothing else is done by looks: no value is kept, and no run starts. -/
theorem decideAllTraced_silent {β : Type} {branches : List (Branch α)} {told? : Deed α → Option β}
    (deaf : ∀ branch row, told? (.mark branch row) = none)
    (done : decideAll source opened pins env state branches = .ok ended)
    : (decideAllTraced source opened number pins env state branches).deeds.filterMap told?
        = [] := by
  induction branches generalizing state with
  | nil => rfl
  | cons b rest ih =>
      obtain ⟨middle, first, later⟩ := decideAll_cons_ok done
      rw [decideAllTraced, Traced.bind_deeds ((decideTraced_result pins env state b).trans first),
        List.filterMap_append, ih later, List.append_nil]
      rcases decideTraced_deeds number first with ⟨nothing, -⟩ | ⟨marked, -⟩
      · rw [nothing]
        rfl
      · rw [marked, List.filterMap_cons, deaf]
        rfl

end RunState

-----------------------------------------------------------------------------------------
-- Whole runs
-----------------------------------------------------------------------------------------

namespace Plan

variable {source : RandomSource σ α} {opened : String → σ} {plan : Plan α}
  {state ended : RunState σ α} {number : Nat}

/-- A point in time keeps the values that it finds in its column, then the branches are looked at,
then time goes on.
-/
theorem runThroughTraced_cons {time : α} {rest : List α} {steps : List (Env α)}
    (holds : state.Holds plan.order)
    (ran : plan.runThrough source opened (time :: rest) state = .ok (steps, ended))
    (number column : Nat)
    : ∃ (found : List (String × α)) (env : Env α) (computed decided : RunState σ α)
        (others : List (Env α)),
        found.map (·.1) = plan.order
          ∧ env = found.reverse ++ state.constants
          ∧ state.SameSetting computed
          ∧ computed.decideAll source opened plan.pins env plan.branches = .ok decided
          ∧ decided.Holds plan.order
          ∧ plan.runThrough source opened rest decided = .ok (others, ended)
          ∧ steps = env :: others
          ∧ (plan.runThroughTraced source opened number column (time :: rest) state).deeds
            = found.map (fun (key, x) => .keep key number column x)
              ++ (computed.decideAllTraced source opened number plan.pins env plan.branches).deeds
              ++ (plan.runThroughTraced source opened number (column + 1) rest
                  decided).deeds := by
  obtain ⟨env, computed, decided, others, first, second, third, rfl⟩ := runThrough_cons_ok ran
  obtain ⟨found, kept, named, grown, setting⟩ :=
    RunState.computeTraced_deeds number column holds first
  have holdsNext : decided.Holds plan.order :=
    RunState.decideAll_holds (by rw [RunState.Holds, setting.inForce]; exact holds) second
  refine ⟨found, env, computed, decided, others, named, grown, setting, second, holdsNext, third,
    rfl, ?_⟩
  rw [runThroughTraced, Traced.bind_deeds ((RunState.computeTraced_result _ _ _).trans first),
    Traced.bind_deeds ((RunState.decideAllTraced_result _ _ _ _).trans second),
    Traced.bind_deeds ((runThroughTraced_result _ _ _).trans third), kept]
  simp

/-- Each point in time keeps the values that it finds in its column. By induction along the points
in time.
-/
theorem runThroughTraced_kept (distinct : plan.order.Nodup) {times : List α} {column : Nat}
    {steps : List (Env α)} (holds : state.Holds plan.order)
    (ran : plan.runThrough source opened times state = .ok (steps, ended))
    (name : String) (row c : Nat)
    : (plan.runThroughTraced source opened number column times state).deeds.filterMap
          (Deed.kept? name row c)
        = if row = number ∧ column ≤ c ∧ name ∈ plan.order
          then (steps[c - column]?.bind (·.lookup name)).toList
          else [] := by
  induction times generalizing state column steps with
  | nil =>
      cases ran
      simp [runThroughTraced]
  | cons time rest ih =>
      obtain ⟨found, env, computed, decided, others, named, grown, -, looked, holdsNext, later,
        rfl, deeds⟩ := runThroughTraced_cons holds ran number column
      rw [deeds, List.filterMap_append, List.filterMap_append,
        RunState.decideAllTraced_silent (fun _ _ => rfl) looked, ih holdsNext later,
        filterMap_kept (named ▸ distinct) state.constants, named, ← grown, List.append_nil]
      rcases Nat.lt_trichotomy c column with before | rfl | after
      · simp [Nat.ne_of_lt before, Nat.not_le.mpr before,
          Nat.not_le.mpr (Nat.lt_succ_of_lt before)]
      · simp [Nat.not_succ_le_self]
      · have place : c - column = c - (column + 1) + 1 := by omega
        rw [place, List.getElem?_cons_succ]
        simp [Nat.ne_of_gt after, Nat.le_of_lt after, Nat.succ_le_of_lt after]

/-- At each point in time all names have values. -/
theorem runThrough_present {times : List α} {steps : List (Env α)}
    (holds : state.Holds plan.order)
    (ran : plan.runThrough source opened times state = .ok (steps, ended))
    : steps.length = times.length
      ∧ ∀ env ∈ steps, ∀ name ∈ plan.order, env.lookup name ≠ none := by
  induction times generalizing state steps with
  | nil =>
      cases ran
      simp
  | cons time rest ih =>
      obtain ⟨found, env, -, decided, others, named, grown, -, -, holdsNext, later, rfl, -⟩ :=
        runThroughTraced_cons holds ran 0 0
      obtain ⟨length, present⟩ := ih holdsNext later
      refine ⟨congrArg (· + 1) length, fun other member name ordered => ?_⟩
      rcases List.mem_cons.mp member with rfl | among
      · rw [← named] at ordered
        obtain ⟨⟨key, x⟩, entry, rfl⟩ := List.mem_map.mp ordered
        have there : (key, x) ∈ found.reverse ++ state.constants :=
          List.mem_append_left _ (List.mem_reverse.mpr entry)
        exact grown ▸ Entries.lookup_ne_none_of_mem there
      · exact present other among name ordered

/-- Passing through points in time starts no run. -/
theorem runThroughTraced_started {times : List α} {column : Nat} {steps : List (Env α)}
    (holds : state.Holds plan.order)
    (ran : plan.runThrough source opened times state = .ok (steps, ended))
    : (plan.runThroughTraced source opened number column times state).deeds.filterMap
          Deed.started?
        = [] := by
  induction times generalizing state column steps with
  | nil => rfl
  | cons time rest ih =>
      obtain ⟨found, env, computed, decided, others, -, -, -, looked, holdsNext, later, -,
        deeds⟩ := runThroughTraced_cons holds ran number column
      rw [deeds, List.filterMap_append, List.filterMap_append,
        RunState.decideAllTraced_silent (fun _ _ => rfl) looked, ih holdsNext later]
      simp [List.filterMap_map, Function.comp_def, Deed.started?]

/-- Passing through points in time sets the flags of the branches that are taken. -/
theorem runThroughTraced_marks (number : Nat) {times : List α} (column : Nat) {steps : List (Env α)}
    (holds : state.Holds plan.order)
    (known : ∀ branch ∈ state.activated, branch ∈ state.decided)
    (ran : plan.runThrough source opened times state = .ok (steps, ended))
    : RunState.Marks number
        (plan.runThroughTraced source opened number column times state).deeds state ended := by
  induction times generalizing state column steps with
  | nil =>
      cases ran
      exact .of_same (fun _ _ => rfl) rfl fun _ member => member
  | cons time rest ih =>
      obtain ⟨found, env, computed, decided, others, -, -, setting, looked, holdsNext, later, -,
        deeds⟩ := runThroughTraced_cons holds ran number column
      have unmarked : RunState.Marks number
          (found.map fun (key, x) => .keep key number column x) state computed := by
        refine .of_same (fun branch row => ?_) setting.activated fun _ member =>
          setting.decided ▸ member
        simp [List.filterMap_map, Function.comp_def, Deed.marked?]
      have both := unmarked.trans
        (RunState.decideAllTraced_marks (unmarked.known known) looked)
      rw [deeds]
      exact both.trans (ih (column + 1) holdsNext (both.known known) later)

/-- Only branches of the plan are taken in the course of time. -/
theorem runThrough_taken {times : List α} {steps : List (Env α)}
    (holds : state.Holds plan.order)
    (ran : plan.runThrough source opened times state = .ok (steps, ended))
    : ∀ branch ∈ ended.activated,
        branch ∈ state.activated ∨ branch ∈ plan.branches.map (·.name) := by
  induction times generalizing state steps with
  | nil =>
      cases ran
      exact fun _ member => Or.inl member
  | cons time rest ih =>
      obtain ⟨-, env, computed, decided, others, -, -, setting, looked, holdsNext, later, -, -⟩ :=
        runThroughTraced_cons holds ran 0 0
      intro branch member
      rcases ih holdsNext later branch member with before | known
      · rw [← setting.activated]
        exact RunState.decideAll_taken looked branch before
      · exact Or.inr known

/-- What a run that ends does: it starts once, puts each value that comes out of it into its own
row, and sets the flags of the branches that it takes in its own row.
-/
structure Performs (plan : Plan α) (number : Nat) (outcome : Outcome α) (deeds : List (Deed α))
    : Prop where
  started : deeds.filterMap Deed.started? = [()]
  kept
    : ∀ name row column,
        deeds.filterMap (Deed.kept? name row column)
          = if row = number ∧ name ∈ plan.order
            then (outcome.steps[column]?.bind (·.lookup name)).toList
            else []
  marked
    : ∀ branch row,
        deeds.filterMap (Deed.marked? branch row)
          = if row = number ∧ branch ∈ outcome.activated then [()] else []
  taken : ∀ branch ∈ outcome.activated, branch ∈ plan.branches.map (·.name)
  length : outcome.steps.length = plan.times.length
  present : ∀ env ∈ outcome.steps, ∀ name ∈ plan.order, env.lookup name ≠ none

/-- The names that are computed are different, and each has an owner. -/
structure Laid (plan : Plan α) : Prop where
  distinct : plan.order.Nodup
  owned : ∀ name ∈ plan.order, ∃ q ∈ plan.owners, q.name = name

/-- A run that ends does this. -/
theorem Laid.performs (laid : plan.Laid) {outcome : Outcome α}
    (ran : plan.run source number = .ok outcome)
    : plan.Performs number outcome (plan.runTraced source number).deeds := by
  obtain ⟨drawn, ended, first, second, activated⟩ := run_ok ran
  obtain ⟨inForce, -, -, takenStart⟩ := RunState.drawConstants_frame first
  have holds : drawn.Holds plan.order := by
    intro name ordered
    obtain ⟨q, member, rfl⟩ := laid.owned name ordered
    rw [inForce]
    exact Entries.lookup_ne_none_of_mem
      (List.mem_map.mpr ⟨q, member, rfl⟩ : (q.name, (⟨q, q.name⟩ : InForce α)) ∈ _)
  have none : drawn.activated = [] := takenStart
  have deeds : (plan.runTraced source number).deeds
      = .start :: (plan.runThroughTraced source (source.stream plan.seed number) number 0
          plan.times drawn).deeds := by
    simp only [runTraced, first, Traced.silent_bind, Traced.note_bind_deeds]
    rw [Traced.bind_deeds ((runThroughTraced_result _ _ _).trans second)]
    simp
  have marks := runThroughTraced_marks number 0 holds
    (by simp [none]) second
  obtain ⟨length, present⟩ := runThrough_present holds second
  refine ⟨?_, fun name row column => ?_, fun branch row => ?_, ?_, length, present⟩
  · rw [deeds, List.filterMap_cons, runThroughTraced_started holds second]
    rfl
  · rw [deeds, List.filterMap_cons, runThroughTraced_kept laid.distinct holds second]
    simp [Deed.kept?]
  · rw [deeds, List.filterMap_cons, marks.marked, none, activated]
    simp [Deed.marked?]
  · rw [activated]
    simpa [none] using runThrough_taken holds second

end Plan

end Prognosis
