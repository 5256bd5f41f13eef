import Prognosis.Proofs.Simulation.Agreement
import Prognosis.Proofs.Simulation.Looks

/-! What declarations of branches put in place: for each name the last one of its kind is in force
afterwards, and a constant has a value drawn by its declaration in force.
-/

namespace Prognosis

variable {σ α : Type} [Scalar α]

namespace RunState

variable {source : RandomSource σ α} {opened : String → σ} {pins env : Env α} {plan : Plan α}
  {state ended : RunState σ α}

-----------------------------------------------------------------------------------------
-- Declarations in force
-----------------------------------------------------------------------------------------

/-- A declaration of a branch comes in force exactly where it has the name and kind of an owner;
other names keep what is in force.
-/
theorem override_lookup (valid : Valid plan state) (sound : plan.Sound) {branch : String}
    {nested : Quantity α} (done : override source opened pins branch state nested = .ok ended)
    {owner : Quantity α} (member : owner ∈ plan.owners)
    : ended.inForce.lookup owner.name
      = if nested.name == owner.name && nested.kind == owner.kind then
          some ⟨nested, overrideStream branch owner.name⟩
        else state.inForce.lookup owner.name := by
  have put {current : InForce α} (found : state.inForce.lookup nested.name = some current)
      (kind : current.declaration.kind = nested.kind)
      : (state.inForce.put nested.name ⟨nested, overrideStream branch nested.name⟩).lookup
            owner.name
          = if nested.name == owner.name && nested.kind == owner.kind then
              some ⟨nested, overrideStream branch owner.name⟩
            else state.inForce.lookup owner.name := by
    by_cases named : owner.name = nested.name
    · have sameKind := valid.kind_eq sound member (named ▸ found)
      rw [named, Entries.lookup_put_self, ← kind, sameKind]
      simp
    · rw [Entries.lookup_put_of_ne _ _ named]
      simp [Ne.symm named]
  rcases override_cases source opened pins branch state nested with
    ⟨ignored, same⟩ | ⟨current, found, kind, ⟨-, same⟩ | ⟨-, same⟩⟩
  · rw [same] at done
    cases done
    by_cases named : nested.name = owner.name
    · obtain ⟨current, found⟩ := Option.ne_none_iff_exists'.mp (valid.present owner member)
      have kind := ignored current (named ▸ found)
      rw [valid.kind_eq sound member found] at kind
      simp [Ne.symm kind]
    · simp [named]
  · rw [same] at done
    cases done
    exact put found kind
  · rw [same] at done
    obtain ⟨⟨x, s⟩, -, rfl⟩ := exists_of_map_eq_ok done
    exact put found kind

/-- Of several declarations of a branch the last one of the name and kind of an owner is in force,
by induction along the declarations.
-/
theorem overrideAll_lookup (sound : plan.Sound) {b : Branch α} (branch : b ∈ plan.branches)
    {nested : List (Quantity α)} (included : ∀ q ∈ nested, q ∈ b.overrides)
    (valid : Valid plan state)
    (done : overrideAll source opened plan.pins b.name state nested = .ok ended)
    {owner : Quantity α} (member : owner ∈ plan.owners)
    : ended.inForce.lookup owner.name
      = match (nested.filter fun q => q.name == owner.name && q.kind == owner.kind).getLast? with
        | some q => some ⟨q, overrideStream b.name owner.name⟩
        | none => state.inForce.lookup owner.name := by
  induction nested generalizing state with
  | nil =>
      cases done
      rfl
  | cons q rest ih =>
      obtain ⟨middle, first, later⟩ := overrideAll_cons_ok done
      have validNext := (override_resolves valid sound source opened branch
        (included q List.mem_cons_self)).holds first
      rw [ih (fun other among => included other (List.mem_cons_of_mem _ among)) validNext later,
        override_lookup valid sound first member, List.filter_cons]
      split_ifs with replaces
      · rw [List.getLast?_cons]
        cases (rest.filter fun q => q.name == owner.name && q.kind == owner.kind).getLast? <;> rfl
      · rfl

-----------------------------------------------------------------------------------------
-- Values of constants
-----------------------------------------------------------------------------------------

/-- Every constant has a value that its declaration in force has drawn. -/
def Drawn (source : RandomSource σ α) (pins : Env α) (state : RunState σ α) : Prop :=
  ∀ name current, state.inForce.lookup name = some current
    → current.declaration.isConstant = true
    → ∃ known s x s', current.declaration.drawConstant source pins known s = .ok (x, s')
        ∧ state.constants.lookup name = some x

/-- So it is before time runs. -/
theorem drawConstants_drawn (sound : plan.Sound)
    (drawn : (start plan).drawConstants source opened plan.pins plan.constants = .ok ended)
    : Drawn source plan.pins ended := by
  intro name current found constant
  obtain ⟨inForce, -⟩ := drawConstants_frame drawn
  obtain ⟨q, owns, rfl, rfl⟩ := lookup_start (inForce ▸ found)
  have among : constantCell source plan.pins q
      ∈ plan.constants.map (constantCell source plan.pins) :=
    List.mem_map_of_mem (List.mem_filter.mpr ⟨owns, constant⟩)
  obtain ⟨x, value, has⟩ := (drawConstants_solved sound source drawn).drawn _ among
  exact ⟨_, _, x, _, value, has⟩

/-- A declaration of a branch that replaces a constant draws its value. -/
theorem Drawn.override (holds : Drawn source pins state) {branch : String} {nested : Quantity α}
    (done : override source opened pins branch state nested = .ok ended)
    : Drawn source pins ended := by
  have keeps {name : String} (other : name ≠ nested.name) {constants : Env α}
      (same : constants.lookup name = state.constants.lookup name) {current : InForce α}
      (found
        : (state.inForce.put nested.name ⟨nested, overrideStream branch nested.name⟩).lookup name
          = some current)
      (constant : current.declaration.isConstant = true)
      : ∃ known s x s', current.declaration.drawConstant source pins known s = .ok (x, s')
          ∧ constants.lookup name = some x := by
    rw [Entries.lookup_put_of_ne _ _ other] at found
    rw [same]
    exact holds name current found constant
  rcases override_cases source opened pins branch state nested with
    ⟨-, same⟩ | ⟨old, -, -, ⟨varying, same⟩ | ⟨-, same⟩⟩
  · rw [same] at done
    cases done
    exact holds
  · rw [same] at done
    cases done
    intro name current found constant
    by_cases named : name = nested.name
    · subst named
      rw [replacing, Entries.lookup_put_self] at found
      cases found
      rw [varying] at constant
      cases constant
    · exact keeps named rfl found constant
  · rw [same] at done
    obtain ⟨⟨x, s⟩, drawn, rfl⟩ := exists_of_map_eq_ok done
    intro name current found constant
    by_cases named : name = nested.name
    · subst named
      rw [replacing, Entries.lookup_put_self] at found
      cases found
      exact ⟨_, _, x, s, drawn, List.lookup_cons_self⟩
    · exact keeps named (Entries.lookup_cons_of_ne named x _) found constant

/-- So do several of them, by induction along the declarations. -/
theorem Drawn.overrideAll (holds : Drawn source pins state) {branch : String}
    {nested : List (Quantity α)}
    (done : overrideAll source opened pins branch state nested = .ok ended)
    : Drawn source pins ended := by
  induction nested generalizing state with
  | nil =>
      cases done
      exact holds
  | cons q rest ih =>
      obtain ⟨middle, first, later⟩ := overrideAll_cons_ok done
      exact ih (holds.override first) later

/-- Looks at branches keep it. -/
theorem Drawn.decide (holds : Drawn source pins state) {b : Branch α}
    (done : decide source opened pins env state b = .ok ended)
    : Drawn source pins ended := by
  cases decide_looked done with
  | known | waiting | refused => exact holds
  | taken _ _ _ replaced =>
      have gated : Drawn source pins ((state.gated source opened b.name).taking b.name) := holds
      exact gated.overrideAll replaced

theorem Drawn.of_sameSetting (holds : Drawn source pins state)
    (setting : SameSetting state ended)
    : Drawn source pins ended := by
  intro name current found
  rw [setting.inForce] at found
  rw [setting.constants]
  exact holds name current found

end RunState

end Prognosis
