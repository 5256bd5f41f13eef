import Prognosis.Proofs.Simulation.BranchAgreement
import Prognosis.Proofs.Simulation.Scope

/-! Runs of plans that share a scope agree on it: what is drawn and computed in the scope solves the
same equations in both runs, whatever the order.
-/

namespace Prognosis

variable {σ α : Type} [Scalar α]

namespace RunState

variable {opened : String → σ} {scope : Scope} {plan other : Plan α} {a b : RunState σ α}

-----------------------------------------------------------------------------------------
-- Constants
-----------------------------------------------------------------------------------------

/-- The cells of constants correspond on the scope. -/
theorem constantCells_matched (share : plan.Share scope other) (source : RandomSource σ α)
    : Cell.Matched scope.names scope.streams
        (plan.constants.map (constantCell source plan.pins))
        (other.constants.map (constantCell source other.pins)) := by
  refine ⟨?_, ?_, ?_, ?_, ?_, ?_⟩
  · intro cell member inside root read
    obtain ⟨q, constant, rfl⟩ := List.mem_map.mp member
    apply share.closed.reads _ (.owner (List.mem_filter.mp constant).1) inside root
    exact List.mem_append_left _ (List.mem_append_left _ read)
  · intro cell member inside
    obtain ⟨q, constant, rfl⟩ := List.mem_map.mp member
    obtain ⟨owned, fixed⟩ := List.mem_filter.mp constant
    obtain ⟨same, found, equal⟩ := share.alike.owners q owned inside
    have named := Quantity.name_eq_of_unplaced equal
    have constant' := (Quantity.isConstant_eq_of_unplaced equal).trans fixed
    refine ⟨_, List.mem_map_of_mem (List.mem_filter.mpr ⟨found, constant'⟩), named, named, ?_⟩
    funext env
    have pinned : other.pins.lookup q.name = plan.pins.lookup q.name :=
      (share.alike.pins q.name inside).symm
    exact (congrFun (Quantity.drawConstant_eq_of_unplaced source other.pins equal) env).trans
      (q.drawConstant_congr source pinned fun _ _ => rfl)
  · intro cell member inside
    obtain ⟨same, constant, rfl⟩ := List.mem_map.mp member
    obtain ⟨found, fixed⟩ := List.mem_filter.mp constant
    have inside : scope.names same.name := inside
    obtain ⟨q, owned, equal⟩ := share.owner_of_other found inside
    have named := (Quantity.name_eq_of_unplaced equal).symm
    have constant' := (Quantity.isConstant_eq_of_unplaced equal).symm.trans fixed
    exact ⟨_, List.mem_map_of_mem (List.mem_filter.mpr ⟨owned, constant'⟩), named, named⟩
  · intro cell member inside
    obtain ⟨q, constant, rfl⟩ := List.mem_map.mp member
    exact (share.separate.streams _ (.owner (List.mem_filter.mp constant).1)).mp inside
  · intro cell member inside
    obtain ⟨q, constant, rfl⟩ := List.mem_map.mp member
    exact (share.separateOther.streams _ (.owner (List.mem_filter.mp constant).1)).mp inside
  · intro cell member inside
    obtain ⟨q, constant, rfl⟩ := List.mem_map.mp member
    exact (share.separate.streams _ (.owner (List.mem_filter.mp constant).1)).mpr inside

/-- What drawing the constants of a sound plan leaves is a solution. -/
theorem drawConstants_solved (sound : plan.Sound) (source : RandomSource σ α)
    {ended : RunState σ α}
    (drawn
      : (start plan).drawConstants source opened plan.pins plan.constants = .ok ended)
    : Solved (plan.constants.map (constantCell source plan.pins)) []
        ((start plan : RunState σ α).streamAt opened) ended.constants
        (ended.streamAt opened) := by
  have swept := drawConstants_sweep source opened plan.pins (start plan)
    plan.constants
  rw [drawn] at swept
  refine sweep_solved (constantCells_ready sound source) ?_ swept.symm
  have streams : (plan.constants.map (constantCell source plan.pins)).map (·.stream)
      = plan.constants.map (·.name) := by
    simp [constantCell]
  rw [streams]
  exact sound.distinct.sublist (List.filter_sublist.map _)

omit [Scalar α] in
/-- At the start every owner has its own stream. -/
theorem lookup_start_owner (sound : plan.Sound) {q : Quantity α} (member : q ∈ plan.owners)
    : (start plan : RunState σ α).inForce.lookup q.name = some ⟨q, q.name⟩ := by
  have present : (start plan : RunState σ α).inForce.lookup q.name ≠ none :=
    Entries.lookup_ne_none_of_mem (List.mem_map.mpr ⟨q, member, rfl⟩)
  obtain ⟨current, found⟩ := Option.ne_none_iff_exists'.mp present
  obtain ⟨owner, owns, named, rfl⟩ := lookup_start found
  rw [found, sound.owner_unique owns member named]

/-- The states in which time starts agree on the scope. -/
theorem drawConstants_agree (share : plan.Share scope other) (source : RandomSource σ α)
    (drawn : (start plan).drawConstants source opened plan.pins plan.constants = .ok a)
    (drawnOther
      : (start other).drawConstants source opened other.pins other.constants = .ok b)
    : Agree opened scope a b := by
  obtain ⟨values, streams⟩ := Solved.agree (constantCells_ready share.sound source)
    (constantCells_matched share source)
    (drawConstants_solved share.sound source drawn)
    (drawConstants_solved share.soundOther source drawnOther)
    (fun _ _ => rfl) (fun _ _ => rfl)
  obtain ⟨inForce, -, decided, activated⟩ := drawConstants_frame drawn
  obtain ⟨inForceOther, -, decidedOther, activatedOther⟩ := drawConstants_frame drawnOther
  refine ⟨streams, ?_, values, ?_, ?_⟩
  · intro name inside
    obtain ⟨q, member, rfl⟩ := share.closed.declared name inside
    obtain ⟨same, found, equal⟩ := share.alike.owners q member inside
    have named := Quantity.name_eq_of_unplaced equal
    rw [inForce, inForceOther, lookup_start_owner share.sound member]
    have lookup := lookup_start_owner (σ := σ) share.soundOther found
    rw [named] at lookup
    simp only [lookup, Option.map_some, InForce.unplaced, equal]
  · intro branch _
    rw [decided, decidedOther]
    exact .rfl
  · intro branch _
    rw [activated, activatedOther]
    exact .rfl

-----------------------------------------------------------------------------------------
-- Points in time
-----------------------------------------------------------------------------------------

/-- The streams of cells belong to the scope when their names do. -/
theorem cells_own (separate : scope.Separate plan) (valid : Valid plan a)
    {source : RandomSource σ α} {time origin : α} {cell : Cell σ α}
    (member : cell ∈ a.cells source time origin plan.order)
    : scope.streams cell.stream ↔ scope.names cell.name := by
  obtain ⟨name, -, current, found, rfl⟩ := mem_cells.mp member
  have streams := separate.streams current (valid.held name current found)
  rwa [valid.coherent.named name current found] at streams

/-- The cells of a point in time correspond on the scope. -/
theorem cells_matched (share : plan.Share scope other) (valid : Valid plan a)
    (validOther : Valid other b) (agree : Agree opened scope a b) (source : RandomSource σ α)
    (time origin : α)
    : Cell.Matched scope.names scope.streams (a.cells source time origin plan.order)
        (b.cells source time origin other.order) := by
  refine ⟨?_, ?_, ?_, ?_, ?_, ?_⟩
  · intro cell member inside root read
    obtain ⟨name, -, current, found, rfl⟩ := mem_cells.mp member
    have named := valid.coherent.named name current found
    refine share.closed.reads current (valid.held name current found) (named.symm ▸ inside) root ?_
    exact List.mem_append_right _ read
  · intro cell member inside
    obtain ⟨name, ordered, current, found, rfl⟩ := mem_cells.mp member
    have inside : scope.names name := inside
    obtain ⟨same, found', equal, stream⟩ := agree.of_lookup inside found
    have ordered' := (share.order_iff inside).mp ordered
    refine ⟨_, mem_cells.mpr ⟨name, ordered', same, found', rfl⟩, rfl, stream, ?_⟩
    have held := valid.held name current found
    have named := valid.coherent.named name current found
    funext env
    refine (congrFun (Quantity.valueAt_eq_of_unplaced source b.constants time origin equal)
      env).trans (current.declaration.valueAt_congr source time origin ?_ fun _ _ => rfl)
    intro root read
    have within := share.closed.reads current held (named.symm ▸ inside) root
      (List.mem_append_left _ (List.mem_append_right _ read))
    exact (agree.constants root within).symm
  · intro cell member inside
    obtain ⟨name, ordered, current, found, rfl⟩ := mem_cells.mp member
    have inside : scope.names name := inside
    obtain ⟨same, found', -, stream⟩ := agree.symm.of_lookup inside found
    have ordered' := (share.order_iff inside).mpr ordered
    exact ⟨_, mem_cells.mpr ⟨name, ordered', same, found', rfl⟩, rfl, stream⟩
  · exact fun cell member => (cells_own share.separate valid member).mp
  · exact fun cell member => (cells_own share.separateOther validOther member).mp
  · exact fun cell member => (cells_own share.separate valid member).mpr

/-- What computing a point in time leaves is a solution: no two names share a stream. -/
theorem computeAll_solved (separate : scope.Separate plan) (sound : plan.Sound)
    (valid : Valid plan a) (source : RandomSource σ α) (time origin : α) {values : Env α}
    {ended : RunState σ α}
    (computed
      : a.computeAll source opened time origin plan.order a.constants = .ok (values, ended))
    : Solved (a.cells source time origin plan.order) a.constants (a.streamAt opened) values
        (ended.streamAt opened) := by
  have swept := computeAll_sweep source opened valid.coherent time origin
    plan.order a.constants
  rw [computed] at swept
  refine sweep_solved (cells_ready valid sound source time origin) ?_ swept.symm
  have names : ((a.cells source time origin plan.order).map (·.name)).Nodup := by
    rw [cells_names valid sound]
    exact sound.orderDistinct
  refine List.Nodup.map_on ?_ names.of_map
  intro cell member cell' member' sameStream
  apply List.inj_on_of_nodup_map names member member'
  obtain ⟨name, -, current, found, rfl⟩ := mem_cells.mp member
  obtain ⟨name', -, current', found', rfl⟩ := mem_cells.mp member'
  have same := separate.apart current current' (valid.held name current found)
    (valid.held name' current' found') sameStream
  rwa [valid.coherent.named name current found,
    valid.coherent.named name' current' found'] at same

/-- A point in time is computed alike on the scope. -/
theorem computeAll_agree (share : plan.Share scope other) (valid : Valid plan a)
    (validOther : Valid other b) (agree : Agree opened scope a b) (source : RandomSource σ α)
    (time origin : α) {values values' : Env α} {ended ended' : RunState σ α}
    (computed
      : a.computeAll source opened time origin plan.order a.constants = .ok (values, ended))
    (computedOther
      : b.computeAll source opened time origin other.order b.constants
          = .ok (values', ended'))
    : (∀ name, scope.names name → values.lookup name = values'.lookup name)
      ∧ Agree opened scope ended ended' := by
  obtain ⟨same, streams⟩ := Solved.agree (cells_ready valid share.sound source time origin)
    (cells_matched share valid validOther agree source time origin)
    (computeAll_solved share.separate share.sound valid source time origin computed)
    (computeAll_solved share.separateOther share.soundOther validOther source time origin
      computedOther)
    agree.constants agree.streams
  obtain ⟨setting, -⟩ := computeAll_frame valid.coherent computed
  obtain ⟨settingOther, -⟩ := computeAll_frame validOther.coherent computedOther
  refine ⟨same, streams, ?_, ?_, ?_, ?_⟩
  · rw [setting.inForce, settingOther.inForce]
    exact agree.inForce
  · rw [setting.constants, settingOther.constants]
    exact agree.constants
  · rw [setting.decided, settingOther.decided]
    exact agree.decided
  · rw [setting.activated, settingOther.activated]
    exact agree.activated

end RunState

-----------------------------------------------------------------------------------------
-- Runs
-----------------------------------------------------------------------------------------

/-- The outcomes give the names the same samples at each point in time, and none is missing. -/
def Outcome.SameSamples (names : String → Prop) (outcome other : Outcome α) : Prop :=
  List.Forall₂ (fun env env' : Env α =>
      ∀ name, names name → ∃ x, env.lookup name = some x ∧ env'.lookup name = some x)
    outcome.steps other.steps

namespace Plan

variable {opened : String → σ} {scope : Scope} {plan other : Plan α} {a b : RunState σ α}

/-- A point in time gives the names of the scope the same values, and none is missing. -/
theorem computeAll_same (share : plan.Share scope other) (valid : a.Valid plan)
    (validOther : b.Valid other) (agree : RunState.Agree opened scope a b)
    (source : RandomSource σ α) (time : α) {values values' : Env α} {ended ended' : RunState σ α}
    (computed
      : a.computeAll source opened time plan.origin plan.order a.constants = .ok (values, ended))
    (computedOther
      : b.computeAll source opened time other.origin other.order b.constants
          = .ok (values', ended'))
    : (∀ name, scope.names name
          → ∃ x, values.lookup name = some x ∧ values'.lookup name = some x)
      ∧ RunState.Agree opened scope ended ended' := by
  obtain ⟨-, owned⟩ := (RunState.computeAll_resolves valid share.sound source opened time
    plan.origin).holds computed
  rw [← share.alike.origin_eq] at computedOther
  obtain ⟨equal, agreeEnd⟩ := RunState.computeAll_agree share valid validOther agree source time
    plan.origin computed computedOther
  refine ⟨fun name inside => ?_, agreeEnd⟩
  obtain ⟨q, member, rfl⟩ := share.closed.declared name inside
  obtain ⟨x, found⟩ := Option.ne_none_iff_exists'.mp (owned q member)
  exact ⟨x, found, (equal q.name inside).symm.trans found⟩

/-- All points in time agree on the scope, and so do the branches that were taken. By induction
along the points in time, with agreement and validity of both states as the invariant.
-/
theorem runThrough_agree (share : plan.Share scope other) (source : RandomSource σ α)
    (times : List α) (valid : a.Valid plan) (validOther : b.Valid other)
    (agree : RunState.Agree opened scope a b) {steps steps' : List (Env α)}
    {ended ended' : RunState σ α}
    (ran : plan.runThrough source opened times a = .ok (steps, ended))
    (ranOther : other.runThrough source opened times b = .ok (steps', ended'))
    : List.Forall₂ (fun env env' : Env α =>
          ∀ name, scope.names name → ∃ x, env.lookup name = some x ∧ env'.lookup name = some x)
        steps steps'
      ∧ RunState.Agree opened scope ended ended' := by
  induction times generalizing a b steps steps' with
  | nil =>
      cases ran
      cases ranOther
      exact ⟨.nil, agree⟩
  | cons time rest ih =>
      obtain ⟨env, next, later, others, computed, decided, more, rfl⟩ := runThrough_cons_ok ran
      obtain ⟨env', next', later', others', computedOther, decidedOther, moreOther, rfl⟩ :=
        runThrough_cons_ok ranOther
      obtain ⟨validNext, owned⟩ := (RunState.computeAll_resolves valid share.sound source opened
        time plan.origin).holds computed
      obtain ⟨validNextOther, ownedOther⟩ := (RunState.computeAll_resolves validOther
        share.soundOther source opened time other.origin).holds computedOther
      have validLater := (RunState.decideAll_resolves share.sound source opened owned
        (fun _ member => member) validNext).holds decided
      have validLaterOther := (RunState.decideAll_resolves share.soundOther source opened
        ownedOther (fun _ member => member) validNextOther).holds decidedOther
      obtain ⟨sameHere, -⟩ :=
        computeAll_same share valid validOther agree source time computed computedOther
      rw [← share.alike.origin_eq] at computedOther
      obtain ⟨values, agreeNext⟩ :=
        RunState.computeAll_agree share valid validOther agree source time plan.origin computed
          computedOther
      have agreeLater := RunState.decideAll_agree share source values owned ownedOther
        share.alike.branches.symm (fun _ member => member) (fun _ member => member) validNext
        validNextOther agreeNext decided decidedOther
      obtain ⟨same, agreeEnd⟩ := ih validLater validLaterOther agreeLater more moreOther
      exact ⟨.cons sameHere same, agreeEnd⟩

/-- Runs of plans that are alike on a closed and separate scope agree on it. -/
theorem run_agree (share : plan.Share scope other) (source : RandomSource σ α) (number : Nat)
    {outcome outcome' : Outcome α} (ran : plan.run source number = .ok outcome)
    (ranOther : other.run source number = .ok outcome')
    : outcome.SameSamples scope.names outcome'
      ∧ ∀ branch, scope.branches branch
          → (branch ∈ outcome.activated ↔ branch ∈ outcome'.activated) := by
  obtain ⟨state, ended, drawn, through, activated⟩ := run_ok ran
  obtain ⟨state', ended', drawnOther, throughOther, activatedOther⟩ := run_ok ranOther
  rw [← share.alike.seed] at drawnOther throughOther
  rw [← share.alike.times] at throughOther
  have valid := (RunState.drawConstants_resolves share.sound source
    (source.stream plan.seed number)).holds drawn
  have validOther := (RunState.drawConstants_resolves share.soundOther source
    (source.stream plan.seed number)).holds drawnOther
  have agree := RunState.drawConstants_agree share source drawn drawnOther
  obtain ⟨same, agreeEnd⟩ :=
    runThrough_agree share source plan.times valid validOther agree through throughOther
  rw [activated, activatedOther]
  exact ⟨same, agreeEnd.activated⟩

end Plan

end Prognosis
